import ApprovedOps.Proofs.Except
import ApprovedOps.Proofs.Yaml.Styles
import ApprovedOps.Yaml.Scalar

/-! # Reading between quotes

What stands between quotes is read in turns of text and blanks. Here it is read from the end: one
rule for each thing that can stand between quotes in front of what is read already.
-/

namespace ApprovedOps.Yaml

open Cursor

open Layout (joined)

namespace Scalar

variable {double : Bool} {start n : Nat} {c e stop : Cursor} {p q : CodePoint} {s t r : Text}

/-- The quote at both ends. -/
def quoteOf (double : Bool) : Char :=
  if double then '"' else '\''

/-! ## Line breaks and blanks -/

theorem separator_none (here : c.rest = p :: r) (dash : p ≠ .char '-') (dot : p ≠ .char '.') :
    c.isAtSeparator = false := by
  have dashes : Text.ofString "---" = [.char '-', .char '-', .char '-'] := rfl
  have dots : Text.ofString "..." = [.char '.', .char '.', .char '.'] := rfl
  simp [isAtSeparator, isAtMark, Text.startsWith, here, dashes, dots, List.isPrefixOf, dash.symm,
    dot.symm]

theorem break_ne (break_ : isBreak p = true) : p ≠ .char ' ' ∧ p ≠ .char '\t' ∧ p ≠ .char '-' ∧
    p ≠ .char '.' ∧ p ≠ .char '\'' ∧ p ≠ .char '"' ∧ p ≠ .char '#' := by
  refine ⟨?_, ?_, ?_, ?_, ?_, ?_, ?_⟩ <;> rintro rfl <;> exact absurd break_ (by decide)

theorem isBlank_eq_false (h : isBlank p = false) :
    isSpaceOrTab p = false ∧ isBreak p = false :=
  Bool.or_eq_false_iff.mp h

theorem spaceOrTab_spaces {n : Nat} : ∀ p ∈ spaces n, isSpaceOrTab p = true := by
  intro p among
  rw [List.eq_of_mem_replicate among]
  rfl

/-- Line breaks with an indentation after the last of them. No document begins or ends among them,
    since the indentation is not empty. -/
theorem quotedBreaks_eq {bs : Text} {indent : Nat} (deep : 0 < indent)
    (here : c.rest = bs ++ spaces indent ++ q :: r) (shown : isBlank q = false)
    (breaks : ∀ b ∈ bs, isBreak b = true ∧ b ≠ .char '\r') (enough : bs.length < n) :
    quotedBreaks start n c = .ok (bs.map softened, c.past (bs ++ spaces indent)) := by
  obtain ⟨unblank, unbroken⟩ := isBlank_eq_false shown
  induction bs generalizing c n with
  | nil =>
      cases n with
      | zero => cases enough
      | succ n =>
          obtain ⟨indent, rfl⟩ := Nat.exists_eq_add_of_lt deep
          have first : c.rest = .char ' ' :: (spaces (0 + indent) ++ q :: r) := here
          have skipped : c.skipWhile isSpaceOrTab = c.past (spaces (0 + indent + 1)) :=
            skipWhile_eq here spaceOrTab_spaces (by simpa using unblank)
          have after : (c.past (spaces (0 + indent + 1))).isAt isBreak = false :=
            (isAt_eq (past_rest here) isBreak).trans unbroken
          rw [quotedBreaks, separator_none first (by decide) (by decide)]
          simp only [Bool.false_eq_true, if_false, skipped, after]
          rfl
  | cons b bs ih =>
      cases n with
      | zero => cases enough
      | succ n =>
          obtain ⟨⟨break_, other⟩, more⟩ := List.forall_mem_cons.mp breaks
          obtain ⟨space, tab, dash, dot, -⟩ := break_ne break_
          have skipped : c.skipWhile isSpaceOrTab = c :=
            skipWhile_eq (t := []) here (by simp) (by simp [isSpaceOrTab, space, tab])
          have rest := ih (past_rest (t := [b]) here) more (Nat.lt_of_succ_lt_succ enough)
          rw [quotedBreaks, separator_none here dash dot]
          simp only [Bool.false_eq_true, if_false, skipped, isAt_eq here, break_, if_true,
            lineBreak_eq here break_ other]
          rw [rest]
          rfl

/-- Line breaks between quotes are joined, and the indentation after them is dropped. -/
theorem quotedBlanks_breaks {b : CodePoint} {bs : Text} {indent : Nat} (deep : 0 < indent)
    (here : c.rest = b :: bs ++ spaces indent ++ q :: r) (shown : isBlank q = false)
    (breaks : ∀ p ∈ b :: bs, isBreak p = true ∧ p ≠ .char '\r') :
    quotedBlanks start c = .ok (joined (b :: bs), c.past (b :: bs ++ spaces indent)) := by
  obtain ⟨⟨break_, other⟩, more⟩ := List.forall_mem_cons.mp breaks
  obtain ⟨space, tab, -⟩ := break_ne break_
  have none_ : c.takeWhile isSpaceOrTab = ([], c) :=
    takeWhile_eq (t := []) here (by simp) (by simp [isSpaceOrTab, space, tab])
  have next : (c.past [b]).rest = bs ++ spaces indent ++ q :: r := past_rest here
  have rest : quotedBreaks start ((c.past [b]).rest.length + 1) (c.past [b]) = _ :=
    quotedBreaks_eq deep next shown more (by
      rw [next]
      simp only [List.length_append]
      omega)
  rw [quotedBlanks, none_]
  simp only [here, List.cons_append, reduceCtorEq, if_false, isAt_eq here, break_, if_true,
    lineBreak_eq here break_ other]
  rw [rest]
  rfl

/-- Spaces between quotes stand for themselves in front of what is no blank. -/
theorem quotedBlanks_spaces (here : c.rest = s ++ q :: r) (shown : isBlank q = false)
    (all : ∀ p ∈ s, isSpaceOrTab p = true) : quotedBlanks start c = .ok (s, c.past s) := by
  obtain ⟨unblank, unbroken⟩ := isBlank_eq_false shown
  have run : c.takeWhile isSpaceOrTab = (s, c.past s) := takeWhile_eq here all (by simpa using unblank)
  have after := past_rest here
  rw [quotedBlanks, run]
  simp only [after, reduceCtorEq, if_false, isAt_eq after, unbroken, Bool.false_eq_true]
  rfl

/-! ## Text -/

/-- Text in front of what has been read. -/
def prepend (t : Text) (read : Text × Cursor) : Text × Cursor :=
  (t ++ read.1, read.2)

/-- What follows a run of plain text between quotes. -/
def afterRun (double : Bool) (start n : Nat) (c : Cursor) : Except Failure (Text × Cursor) :=
  if !double && c.isAtChar '\'' && c.peekAt 1 = some (.char '\'') then
    (quotedText double start n (forward 2 c)).map (prepend [.char '\''])
  else if double && c.isAtChar '\'' then
    (quotedText double start n c.step).map (prepend [.char '\''])
  else if !double && c.isAt (isOneOf "\"\\") then
    (quotedText double start n c.step).map (prepend c.peek.toList)
  else if double && c.isAtChar '\\' then do
    let read ← escape start c.step
    (quotedText double start n read.2).map (prepend read.1)
  else
    .ok ([], c)

theorem quotedText_succ (double : Bool) (start n : Nat) (c : Cursor) :
    quotedText double start (n + 1) c =
      (afterRun double start n (c.takeWhile (!endsQuotedRun ·)).2).map
        (prepend (c.takeWhile (!endsQuotedRun ·)).1) := by
  rw [quotedText, afterRun]
  generalize c.takeWhile (!endsQuotedRun ·) = found
  simp only
  split
  · cases quotedText double start n (forward 2 found.2) <;> rfl
  · split
    · cases quotedText double start n found.2.step <;> rfl
    · split
      · cases quotedText double start n found.2.step <;> simp [prepend, Except.map]
      · split
        · cases escape start found.2.step with
          | error e => rfl
          | ok read =>
              cases more : quotedText double start n read.2 <;>
                simp [prepend, Except.map, bind, Except.bind, more, pure, Except.pure]
        · simp [prepend, Except.map, pure, Except.pure]

theorem map_prepend_nil (read : Except Failure (Text × Cursor)) : read.map (prepend []) = read := by
  cases read <;> rfl

theorem map_prepend_append (s t : Text) (read : Except Failure (Text × Cursor)) :
    read.map (prepend (s ++ t)) = (read.map (prepend t)).map (prepend s) := by
  cases read <;> simp [prepend, Except.map]

theorem quotedText_cons (here : c.rest = p :: r) (inside : endsQuotedRun p = false) :
    quotedText double start (n + 1) c =
      (quotedText double start (n + 1) c.step).map (prepend [p]) := by
  have run : c.takeWhile (!endsQuotedRun ·) = prepend [p] (c.step.takeWhile (!endsQuotedRun ·)) := by
    rw [Cursor.takeWhile, Cursor.takeWhile, here, step_rest here,
      List.takeWhile_cons_of_pos (by rw [inside]; rfl)]
    rfl
  rw [quotedText_succ, quotedText_succ, run]
  exact map_prepend_append [p] _ _

theorem quotedText_stop (here : c.rest = p :: r) (ends : endsQuotedRun p = true) :
    quotedText double start (n + 1) c = afterRun double start n c := by
  have none_ : c.takeWhile (!endsQuotedRun ·) = ([], c) :=
    takeWhile_eq (t := []) here (by simp) (by simpa using ends)
  rw [quotedText_succ, none_]
  exact map_prepend_nil _

theorem quotedText_blank (here : c.rest = p :: r) (blank : isBlank p = true) :
    quotedText double start (n + 1) c = .ok ([], c) := by
  have other (x : Char) (shown : isBlank (.char x) = false) : p ≠ .char x := by
    rintro rfl
    rw [shown] at blank
    cases blank
  have ends : endsQuotedRun p = true := by rw [endsQuotedRun, blank, Bool.or_true]
  have double_ := other '"' (by decide)
  have single_ := other '\'' (by decide)
  have slash := other '\\' (by decide)
  have raw : isOneOf "\"\\" p = false := by
    cases p with
    | char x => simpa [isOneOf] using ⟨fun h => double_ (by rw [h]), fun h => slash (by rw [h])⟩
    | surrogate i => rfl
  rw [quotedText_stop here ends, afterRun]
  simp [isAtChar_eq here, isAt_eq here, raw, single_, slash]

/-! ## Turns of text and blanks -/

theorem quotedRest_succ {quote : Char} (here : c.rest = p :: r) (other : p ≠ .char quote)
    (read : quotedBlanks start c = .ok (s, e)) :
    quotedRest double quote start (n + 1) c =
      (do
        let text ← quotedText double start (e.rest.length + 1) e
        (quotedRest double quote start n text.2).map (prepend text.1)).map (prepend s) := by
  rw [quotedRest, isAtChar_eq here, if_neg (by simpa using other), read]
  simp only [bind, Except.bind]
  cases quotedText double start (e.rest.length + 1) e with
  | error e => rfl
  | ok text =>
      cases more : quotedRest double quote start n text.2 <;>
        simp [Except.map, prepend, more, pure, Except.pure]

/-- From a place between quotes to the closing quote the document says `t`, and the scalar ends at
    `stop`. -/
def Tail (double : Bool) (start : Nat) (c : Cursor) (t : Text) (stop : Cursor) : Prop :=
  ∃ text e, e.rest.length ≤ c.rest.length ∧
    (∀ n, c.rest.length < n → quotedText double start n c = .ok (text, e)) ∧
    ∃ more, (∀ n, e.rest.length < n →
      quotedRest double (quoteOf double) start n e = .ok (more, stop)) ∧ t = text ++ more

namespace Tail

theorem quoted (h : Tail double start c t stop) : quoted double start c = .ok (t, stop) := by
  obtain ⟨text, e, ahead, first, more, rest, rfl⟩ := h
  rw [Scalar.quoted, first _ (Nat.lt_succ_self _)]
  have rest := rest _ (Nat.lt_succ_self _)
  rw [quoteOf] at rest
  simp only [bind, Except.bind, rest]
  rfl

/-- The closing quote. A single quote must not be followed by another. -/
theorem close (here : c.rest = .char (quoteOf double) :: r)
    (alone : double = true ∨ r.head? ≠ some (.char '\'')) : Tail double start c [] c.step := by
  have ends : endsQuotedRun (.char (quoteOf double)) = true := by cases double <;> decide
  refine ⟨[], c, Nat.le_refl _, fun n enough => ?_, [], fun n enough => ?_, rfl⟩
  · cases n with
    | zero => cases enough
    | succ n =>
        rw [quotedText_stop here ends, afterRun]
        cases double with
        | true => simp [isAtChar_eq here, quoteOf]
        | false =>
            have alone : r.head? ≠ some (.char '\'') := alone.resolve_left Bool.false_ne_true
            simp [isAtChar_eq here, isAt_eq here, quoteOf, peekAt_one here, alone, isOneOf]
  · cases n with
    | zero => cases enough
    | succ n =>
        rw [quotedRest, isAtChar_eq here, if_pos (by simp)]
        rfl

/-- One more thing that the reader of text takes. -/
theorem text {d : Cursor} (shorter : d.rest.length < c.rest.length)
    (read : ∀ n, d.rest.length < n →
      quotedText double start (n + 1) c = (quotedText double start n d).map (prepend s))
    (h : Tail double start d t stop) : Tail double start c (s ++ t) stop := by
  obtain ⟨text, e, ahead, first, more, rest, rfl⟩ := h
  refine ⟨s ++ text, e, by omega, fun n enough => ?_, more, rest,
    (List.append_assoc s text more).symm⟩
  cases n with
  | zero => cases enough
  | succ n =>
      rw [read n (by omega), first n (by omega)]
      rfl

theorem step_shorter (here : c.rest = p :: r) : c.step.rest.length < c.rest.length := by
  rw [step_rest here, here]
  exact Nat.lt_succ_self _

/-- A code point that stands for itself. -/
theorem cons (here : c.rest = p :: r) (inside : endsQuotedRun p = false)
    (h : Tail double start c.step t stop) : Tail double start c (p :: t) stop := by
  obtain ⟨text, e, ahead, first, more, rest, rfl⟩ := h
  have shorter := step_shorter here
  refine ⟨p :: text, e, by omega, fun n enough => ?_, more, rest, rfl⟩
  cases n with
  | zero => cases enough
  | succ n =>
      rw [quotedText_cons here inside, first _ (Nat.lt_trans shorter enough)]
      rfl

/-- A single quote between single quotes, which is there twice. -/
theorem apostrophes (here : c.rest = .char '\'' :: .char '\'' :: r)
    (h : Tail false start (c.past [.char '\'', .char '\'']) t stop) :
    Tail false start c (.char '\'' :: t) stop := by
  refine text (s := [.char '\'']) ?_ (fun n _ => ?_) h
  · rw [past_rest (t := [.char '\'', .char '\'']) here, here]
    simp only [List.length_cons]
    omega
  · rw [quotedText_stop here (by decide), afterRun]
    simp only [isAtChar_eq here, peekAt_one here, List.head?_cons]
    rfl

/-- A single quote between double quotes. -/
theorem apostrophe (here : c.rest = .char '\'' :: r) (h : Tail true start c.step t stop) :
    Tail true start c (.char '\'' :: t) stop := by
  refine text (s := [.char '\'']) (step_shorter here) (fun n _ => ?_) h
  rw [quotedText_stop here (by decide), afterRun]
  simp only [isAtChar_eq here]
  rfl

/-- A double quote or a backslash between single quotes. -/
theorem raw (here : c.rest = p :: r) (mark : p = .char '"' ∨ p = .char '\\')
    (h : Tail false start c.step t stop) : Tail false start c (p :: t) stop := by
  refine text (s := [p]) (step_shorter here) (fun n _ => ?_) h
  rcases mark with rfl | rfl <;>
    rw [quotedText_stop here (by decide), afterRun] <;>
    simp only [isAtChar_eq here, isAt_eq here, peek_eq here] <;> rfl

/-- An escape. -/
theorem escaped {d : Cursor} (here : c.rest = .char '\\' :: r)
    (read : escape start c.step = .ok (s, d)) (shorter : d.rest.length < c.rest.length)
    (h : Tail true start d t stop) : Tail true start c (s ++ t) stop := by
  refine text shorter (fun n _ => ?_) h
  rw [quotedText_stop here (by decide), afterRun]
  simp only [isAtChar_eq here, isAt_eq here, read]
  rfl

/-- Blanks, with text after them. -/
theorem blanks {d : Cursor} (here : c.rest = p :: r) (blank : isBlank p = true)
    (read : quotedBlanks start c = .ok (s, d)) (shorter : d.rest.length < c.rest.length)
    (h : Tail double start d t stop) : Tail double start c (s ++ t) stop := by
  obtain ⟨text, e, ahead, first, more, rest, rfl⟩ := h
  refine ⟨[], c, Nat.le_refl _, fun n enough => ?_, s ++ (text ++ more), fun n enough => ?_, rfl⟩
  · cases n with
    | zero => cases enough
    | succ n => exact quotedText_blank here blank
  · cases n with
    | zero => cases enough
    | succ n =>
        have other : p ≠ .char (quoteOf double) := by
          rintro rfl
          revert blank
          cases double <;> decide
        rw [quotedRest_succ here other read, first _ (Nat.lt_succ_self _)]
        simp only [bind, Except.bind]
        rw [rest n (by omega)]
        rfl

/-- A space between double quotes, if text stands behind it and the spaces that follow it. -/
theorem space {k : Nat} (here : c.rest = .char ' ' :: (spaces k ++ q :: r))
    (shown : isBlank q = false) (h : Tail double start c.step t stop) :
    Tail double start c (.char ' ' :: t) stop := by
  have all : ∀ p ∈ spaces (k + 1), isSpaceOrTab p = true := spaceOrTab_spaces
  have read : quotedBlanks start c = .ok (spaces (k + 1), c.past (spaces (k + 1))) :=
    quotedBlanks_spaces here shown all
  cases k with
  | zero => exact blanks here (by decide) read (step_shorter here) h
  | succ k =>
      -- The next place is a blank too: no text is taken there, and the same blanks but the first.
      obtain ⟨text, e, -, first, more, rest, rfl⟩ := h
      have next : c.step.rest = .char ' ' :: (spaces k ++ q :: r) := step_rest here
      have stays := (first _ (Nat.lt_succ_self _)).symm.trans (quotedText_blank next (by decide))
      obtain ⟨rfl, rfl⟩ := Prod.mk.inj (Except.ok.inj stays)
      have read' : quotedBlanks start c.step = .ok (spaces (k + 1), c.step.past (spaces (k + 1))) :=
        quotedBlanks_spaces next shown spaceOrTab_spaces
      have other : CodePoint.char ' ' ≠ .char (quoteOf double) := by cases double <;> decide
      refine ⟨[], c, Nat.le_refl _, fun n enough => ?_, .char ' ' :: more, fun n enough => ?_, rfl⟩
      · cases n with
        | zero => cases enough
        | succ n => exact quotedText_blank here (by decide)
      · cases n with
        | zero => cases enough
        | succ n =>
            have shorter := step_shorter here
            have rest := rest (n + 1) (by omega)
            rw [quotedRest_succ next other read'] at rest
            rw [quotedRest_succ here other read, show spaces (k + 1 + 1) =
              [.char ' '] ++ spaces (k + 1) from rfl, map_prepend_append]
            exact (congrArg _ rest).trans rfl

end Tail

end Scalar

end ApprovedOps.Yaml
