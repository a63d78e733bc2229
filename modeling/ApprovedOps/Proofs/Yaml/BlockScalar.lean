import Mathlib.Data.List.Induction
import ApprovedOps.Proofs.Yaml.Plain

/-! # Literal blocks

A literal block has its lines as they are, each with an indentation, and its line breaks between
them. The header tells the indentation where the first line would hide it, and how many line breaks
at the end are meant.
-/

namespace ApprovedOps.Yaml

open Cursor

namespace Scalar

variable {indent parent k n start : Nat} {c e : Cursor} {p q : CodePoint} {s t r x b l : Text}

/-- A text of line breaks. -/
def Breaks (b : Text) : Prop :=
  ∀ p ∈ b, isBreak p = true ∧ p ≠ .char '\r'

/-- The ways to write the lines of a block, the first of which begins after the indentation. -/
inductive Blocked (indent : Nat) : Text → Text → Prop
  /-- A line without a line break of its own. -/
  | line {l : Text} : l ≠ [] → (∀ p ∈ l, isBreak p = false) → Blocked indent l (l ++ [.char '\n'])
  /-- A line with line breaks behind it. -/
  | ended {p : CodePoint} {l b : Text} : l ≠ [] → (∀ p ∈ l, isBreak p = false) →
      Breaks (p :: b) → Blocked indent (l ++ p :: b) (l ++ p :: b)
  /-- A line with line breaks and more lines behind it. -/
  | more {p : CodePoint} {l b t x : Text} : l ≠ [] → (∀ p ∈ l, isBreak p = false) →
      Breaks (p :: b) → Blocked indent t x →
      Blocked indent (l ++ p :: b ++ t) (l ++ p :: b ++ spaces indent ++ x)

/-! ## Indentation and blank lines -/

theorem length_spaces (k : Nat) : (spaces k).length = k :=
  List.length_replicate

theorem isSpace_spaces (k : Nat) : ∀ p ∈ spaces k, isSpace p = true := by
  intro p among
  rw [List.eq_of_mem_replicate among]
  rfl

/-- The spaces at the beginning of a line up to the indentation. -/
theorem skipIndentation_eq (here : c.rest = spaces k ++ s) (column : c.column = 0)
    (within : k ≤ indent) (ends : k = indent ∨ ∀ p ∈ s.head?, isSpace p = false) :
    skipIndentation indent c = c.past (spaces k) := by
  obtain ⟨m, rfl⟩ := Nat.exists_eq_add_of_le within
  have none_ : (s.take m).takeWhile isSpace = [] := by
    cases m with
    | zero => rfl
    | succ m =>
        cases s with
        | nil => rfl
        | cons p s =>
            have other := ends.resolve_left (by omega) p rfl
            rw [List.take_succ_cons, List.takeWhile_cons_of_neg (by rw [other]; simp)]
  have taken : (spaces k ++ s).take (k + m) = spaces k ++ s.take m := by
    rw [List.take_append, length_spaces, Nat.add_sub_cancel_left,
      List.take_of_length_le (by rw [length_spaces]; exact Nat.le_add_right k m)]
  rw [skipIndentation, here, column, Nat.sub_zero, taken,
    List.takeWhile_append_of_pos (isSpace_spaces k), none_, List.append_nil]
  rfl

/-- Blank lines, and the spaces at the beginning of the next line up to the indentation. -/
theorem blockBreaks_eq (here : c.rest = b ++ spaces k ++ s) (column : c.column = 0)
    (breaks : Breaks b) (within : k ≤ indent)
    (ends : k = indent ∨ ∀ p ∈ s.head?, isSpace p = false)
    (unbroken : ∀ p ∈ s.head?, isBreak p = false) (enough : b.length < n) :
    blockBreaks indent n c = (b.map softened, c.past (b ++ spaces k)) := by
  induction b generalizing c n with
  | nil =>
      cases n with
      | zero => cases enough
      | succ n =>
          have after : (c.past (spaces k)).isAt isBreak = false := by
            have rest := past_rest here
            cases s with
            | nil => exact isAt_nil rest isBreak
            | cons p s => exact (isAt_eq rest isBreak).trans (unbroken p rfl)
          rw [blockBreaks]
          simp only [skipIndentation_eq here column within ends, after, Bool.false_eq_true, if_false]
          rfl
  | cons p b ih =>
      cases n with
      | zero => cases enough
      | succ n =>
          obtain ⟨⟨break_, other⟩, more⟩ := List.forall_mem_cons.mp breaks
          have space : isSpace p = false := by simpa [isSpace] using (break_ne break_).1
          have skipped : skipIndentation indent c = c.past (spaces 0) :=
            skipIndentation_eq (k := 0) here column (Nat.zero_le _)
              (.inr fun q head => by cases head; exact space)
          have next := ih (past_rest (t := [p]) here) (past_break here break_ other).1 more
            (Nat.lt_of_succ_lt_succ enough)
          rw [blockBreaks, skipped]
          simp only [spaces, List.replicate_zero, past_nil, isAt_eq here, break_, if_true,
            lineBreak_eq here break_ other]
          rw [next]
          rfl

/-- The indentation of a first line that begins with neither a space nor a line break. -/
theorem blockIndentation_eq (here : c.rest = spaces k ++ p :: s) (space : isSpace p = false)
    (unbroken : isBreak p = false) (enough : k < n) :
    blockIndentation n c = ([], if k = 0 then 0 else c.column + k, c.past (spaces k)) := by
  induction k generalizing c n with
  | zero =>
      cases n with
      | zero => cases enough
      | succ n => simp [blockIndentation, isAt_eq here, space, unbroken]; rfl
  | succ k ih =>
      cases n with
      | zero => cases enough
      | succ n =>
          have next : c.step.rest = spaces k ++ p :: s := step_rest here
          have column : c.step.column = c.column + 1 := (step_inline here (by decide) (by decide)).1
          have here' : c.isAt isSpace = true := isAt_eq here isSpace
          rw [blockIndentation]
          simp only [here', if_true, ih next (Nat.lt_of_succ_lt_succ enough), column]
          have widest : max (c.column + 1) (if k = 0 then 0 else c.column + 1 + k) =
              c.column + (k + 1) := by
            split <;> omega
          rw [widest]
          rfl

/-! ## Lines -/

theorem past_breaks (breaks : Breaks (p :: b)) (here : c.rest = p :: b ++ r) :
    (c.past (p :: b)).column = 0 := by
  induction b generalizing c p with
  | nil =>
      obtain ⟨⟨break_, other⟩, -⟩ := List.forall_mem_cons.mp breaks
      exact (past_break here break_ other).1
  | cons q b ih =>
      obtain ⟨-, more⟩ := List.forall_mem_cons.mp breaks
      exact ih more (step_rest here)

/-- A line of a block with the line breaks and the indentation after it. -/
theorem blockBody_line {before : Text} (column : c.column = indent) (some_ : l ≠ [])
    (line : ∀ p ∈ l, isBreak p = false) (breaks : Breaks (p :: b))
    (here : c.rest = l ++ (p :: b ++ (spaces k ++ s))) (within : k ≤ indent)
    (ends : k = indent ∨ ∀ p ∈ s.head?, isSpace p = false)
    (unbroken : ∀ p ∈ s.head?, isBreak p = false) :
    blockBody false indent (n + 1) before c =
      if k = indent ∧ s ≠ [] then
        let body := blockBody false indent n (b.map softened) (c.past (l ++ (p :: b ++ spaces k)))
        { body with text := before ++ l ++ [softened p] ++ body.text }
      else
        ⟨before ++ l, [softened p], b.map softened, c.past (l ++ (p :: b ++ spaces k))⟩ := by
  obtain ⟨⟨break_, other⟩, more⟩ := List.forall_mem_cons.mp breaks
  have next := past_rest here
  have start := past_break next break_ other
  have rest : ((c.past l).past [p]).rest = b ++ (spaces k ++ s) := past_rest (t := [p]) next
  have run : c.takeWhile (!isBreak ·) = (l, c.past l) :=
    takeWhile_eq here (fun q among => by simp [line q among]) (by simp [break_])
  have blank : blockBreaks indent (((c.past l).past [p]).rest.length + 1) ((c.past l).past [p]) =
      (b.map softened, ((c.past l).past [p]).past (b ++ spaces k)) :=
    blockBreaks_eq (rest.trans (List.append_assoc _ _ _).symm) start.1 more within ends unbroken (by
      rw [rest, List.length_append]
      omega)
  have place : ((c.past l).past [p]).past (b ++ spaces k) = c.past (l ++ (p :: b ++ spaces k)) := by
    rw [past_append c l]
    rfl
  have left : (c.past (l ++ (p :: b ++ spaces k))).rest = s :=
    past_rest (here.trans (by simp only [List.append_assoc, List.cons_append]))
  have column' : (c.past (l ++ (p :: b ++ spaces k))).column = k := by
    have first := past_breaks breaks next
    have := past_spaces (past_rest next)
    rw [past_append c l, past_append, this, first, Nat.zero_add]
  have filled : c.rest ≠ [] := by
    rw [here]
    exact List.append_ne_nil_of_left_ne_nil some_ _
  rw [blockBody, if_pos ⟨column, filled⟩, run]
  simp only [lineBreak_eq next break_ other, blank, place, left, column']
  rfl

/-! ## The line breaks at the end -/

/-- What has to happen to the line breaks at the end for a text to be meant. -/
def chompingOf (t : Text) : Chomping :=
  match t.reverse with
  | [] => .clip
  | last :: before =>
    if !Layout.isBreak last then .strip
    else if before.head?.all Layout.isBreak then .keep
    else .clip

/-- The line breaks at the end that are kept. -/
def kept (chomping : Chomping) (ending after : Text) : Text :=
  match chomping with
  | .strip => []
  | .clip => ending
  | .keep => ending ++ after

theorem chompingOf_concat (t : Text) (q : CodePoint) :
    chompingOf (t ++ [q]) =
      if !Layout.isBreak q then .strip else if t.getLast?.all Layout.isBreak then .keep else .clip := by
  rw [chompingOf, List.reverse_append, List.reverse_singleton, List.singleton_append]
  simp only [List.head?_reverse]

/-- What stands in front of the first line does not matter. -/
theorem chompingOf_append (s : Text) (unbroken : ∀ p ∈ t.head?, Layout.isBreak p = false)
    (some_ : t ≠ []) : chompingOf (s ++ t) = chompingOf t := by
  obtain ⟨a, q, rfl⟩ := List.eq_nil_or_concat t |>.resolve_left some_
  rw [List.concat_eq_append] at unbroken ⊢
  rw [← List.append_assoc, chompingOf_concat, chompingOf_concat]
  cases a with
  | nil => simp [unbroken q rfl]
  | cons p a => simp [List.getLast?_append, List.getLast?_cons]

theorem layout_unbroken (h : isBreak p = false) : Layout.isBreak p = false := by
  have other : p ≠ .char '\r' := by
    rintro rfl
    cases h
  rw [Layout.isBreak_eq other, h]

theorem layout_break (h : isBreak p = true ∧ p ≠ .char '\r') : Layout.isBreak p = true := by
  rw [Layout.isBreak_eq h.2, h.1]

theorem chompingOf_line (some_ : l ≠ []) (line : ∀ p ∈ l, isBreak p = false) :
    chompingOf l = .strip := by
  obtain ⟨a, q, rfl⟩ := List.eq_nil_or_concat l |>.resolve_left some_
  rw [List.concat_eq_append] at line ⊢
  rw [chompingOf_concat, layout_unbroken (line q (by simp))]
  rfl

theorem chompingOf_ended (some_ : l ≠ []) (line : ∀ p ∈ l, isBreak p = false)
    (breaks : Breaks (p :: b)) :
    chompingOf (l ++ p :: b) = if b = [] then .clip else .keep := by
  obtain ⟨first, more⟩ := List.forall_mem_cons.mp breaks
  obtain ⟨a, q, rfl⟩ := List.eq_nil_or_concat l |>.resolve_left some_
  rw [List.concat_eq_append] at line ⊢
  rcases List.eq_nil_or_concat b with rfl | ⟨b, r, rfl⟩
  · rw [chompingOf_concat, layout_break first]
    simp [layout_unbroken (line q (by simp))]
  · rw [List.concat_eq_append] at more ⊢
    rw [← List.cons_append, ← List.append_assoc, chompingOf_concat,
      layout_break (more r (by simp))]
    have last : ((a ++ [q]) ++ p :: b).getLast?.all Layout.isBreak = true := by
      rw [List.getLast?_append_cons, List.getLast?_cons, Option.all_some]
      cases final : b.getLast? with
      | none => exact layout_break first
      | some z => exact layout_break (more z (by simp [List.mem_of_getLast? final]))
    rw [if_neg (by simp), if_pos last, if_neg (by simp)]

/-! ## The body -/

theorem map_softened_line (line : ∀ p ∈ l, isBreak p = false) : l.map softened = l := by
  have each (p : CodePoint) (among : p ∈ l) : softened p = p := by
    rw [softened, if_neg]
    intro value
    have := line p among
    simp [isBreak, value] at this
  rw [List.map_congr_left each, List.map_id']

/-- The first line is not empty, and neither is what is written of it. -/
theorem Blocked.head (h : Blocked indent t x) :
    ∃ p u y, t = p :: u ∧ x = p :: y ∧ isBreak p = false := by
  have front {l : Text} (u y : Text) (some_ : l ≠ []) (line : ∀ p ∈ l, isBreak p = false) :
      ∃ p u' y', l ++ u = p :: u' ∧ l ++ y = p :: y' ∧ isBreak p = false := by
    obtain ⟨p, l, rfl⟩ := List.exists_cons_of_ne_nil some_
    exact ⟨p, _, _, rfl, rfl, line p List.mem_cons_self⟩
  cases h with
  | line some_ line => simpa using front [] [.char '\n'] some_ line
  | ended some_ line _ => exact front _ _ some_ line
  | more some_ line _ _ =>
      rw [List.append_assoc, List.append_assoc, List.append_assoc]
      exact front _ _ some_ line

/-- The lines of a block are read again, each line break as it is read, up to a line further to the
    left. -/
theorem Blocked.read (h : Blocked indent t x) (column : c.column = indent)
    (here : c.rest = x ++ (spaces k ++ s)) (left : k < indent)
    (shown : ∀ p ∈ s.head?, isBlank p = false) :
    ∃ text ending after, text ++ kept (chompingOf t) ending after = t.map softened ∧
      ∀ n before, c.rest.length < n → blockBody false indent n before c =
        ⟨before ++ text, ending, after, c.past (x ++ spaces k)⟩ := by
  have ends : k = indent ∨ ∀ p ∈ s.head?, isSpace p = false :=
    .inr fun p head => (Bool.or_eq_false_iff.mp (isBlank_eq_false (shown p head)).1).1
  have unbroken : ∀ p ∈ s.head?, isBreak p = false := fun p head =>
    (isBlank_eq_false (shown p head)).2
  have apart : ¬(k = indent ∧ s ≠ []) := fun both => absurd both.1 (Nat.ne_of_lt left)
  induction h generalizing c with
  | @line l some_ line =>
      have feed : Breaks [.char '\n'] := by
        intro p among
        rw [List.mem_singleton.mp among]
        decide
      refine ⟨l, [.char '\n'], [], ?_, fun n before enough => ?_⟩
      · rw [chompingOf_line some_ line, kept, List.append_nil, map_softened_line line]
      · cases n with
        | zero => cases enough
        | succ n =>
            rw [blockBody_line column some_ line feed (here.trans (List.append_assoc _ _ _))
              (Nat.le_of_lt left) ends unbroken, if_neg apart, List.append_assoc]
            rfl
  | @ended p l b some_ line breaks =>
      refine ⟨l, [softened p], b.map softened, ?_, fun n before enough => ?_⟩
      · rw [chompingOf_ended some_ line breaks, List.map_append, map_softened_line line]
        cases b <;> rfl
      · cases n with
        | zero => cases enough
        | succ n =>
            rw [blockBody_line column some_ line breaks (here.trans (List.append_assoc _ _ _))
              (Nat.le_of_lt left) ends unbroken, if_neg apart, List.append_assoc]
  | @more p l b t x some_ line breaks rest ih =>
      obtain ⟨q, u, y, whole, written, first⟩ := rest.head
      have here' : c.rest = l ++ (p :: b ++ (spaces indent ++ (x ++ (spaces k ++ s)))) := by
        rw [here]
        simp only [List.append_assoc]
      have place : (c.past (l ++ (p :: b ++ spaces indent))).rest = x ++ (spaces k ++ s) :=
        past_rest (by rw [here']; simp only [List.append_assoc])
      have column' : (c.past (l ++ (p :: b ++ spaces indent))).column = indent := by
        have next := past_rest here'
        have first := past_breaks breaks next
        have := past_spaces (past_rest next)
        rw [past_append c l, past_append, this, first, Nat.zero_add]
      obtain ⟨text, ending, after, whole_, read⟩ := ih column' place
      refine ⟨l ++ softened p :: b.map softened ++ text, ending, after, ?_,
        fun n before enough => ?_⟩
      · have suffix : chompingOf (l ++ p :: b ++ t) = chompingOf t := by
          refine chompingOf_append _ ?_ (by rw [whole]; exact List.cons_ne_nil _ _)
          rw [whole]
          rintro z ⟨⟩
          exact layout_unbroken first
        rw [suffix, List.append_assoc, whole_, List.map_append, List.map_append,
          map_softened_line line]
        rfl
      · cases n with
        | zero => cases enough
        | succ n =>
            have shorter : (c.past (l ++ (p :: b ++ spaces indent))).rest.length < n := by
              have : (c.past (l ++ (p :: b ++ spaces indent))).rest.length < c.rest.length :=
                past_shorter (r := x ++ (spaces k ++ s)) (by rw [here']; simp only [List.append_assoc])
                  (List.append_ne_nil_of_left_ne_nil some_ _)
              omega
            have goes : indent = indent ∧ x ++ (spaces k ++ s) ≠ [] :=
              ⟨rfl, by rw [written]; exact List.cons_ne_nil _ _⟩
            rw [blockBody_line column some_ line breaks here' (Nat.le_refl _) (.inl rfl)
              (by rw [written]; rintro z ⟨⟩; exact first), if_pos goes]
            simp only [read n _ shorter, ← past_append]
            simp

/-! ## The header -/

/-- The mark of what happens to the line breaks at the end. -/
def mark : Chomping → Text
  | .clip => []
  | .strip => [.char '-']
  | .keep => [.char '+']

/-- The end of a header. -/
theorem headerEnd_eq (here : c.rest = .char '\n' :: r) :
    c.endsAt 0 isSpaceOrBreak = true ∧ c.skipComment = c ∧ c.endsAt 0 isBreak = true ∧
      c.lineBreak.2 = c.past [.char '\n'] := by
  refine ⟨?_, ?_, ?_, ?_⟩
  · rw [endsAt_zero, here]
    rfl
  · have skipped : c.skipWhile isSpace = c := skipWhile_eq (t := []) here (by simp) rfl
    rw [skipComment]
    simp only [skipped, isAtChar_eq here]
    rfl
  · rw [endsAt_zero, here]
    rfl
  · rw [lineBreak_eq here (by decide) (by decide)]

theorem takeChomping_eq (chomping : Chomping) (here : c.rest = mark chomping ++ .char '\n' :: r) :
    ∃ found, takeChomping c = (found, c.past (mark chomping)) ∧ found.getD .clip = chomping := by
  cases chomping with
  | clip => exact ⟨none, by simp [takeChomping, peek_eq (p := .char '\n') here, chomping?, mark], rfl⟩
  | strip =>
      exact ⟨some .strip, by simp [takeChomping, peek_eq (p := .char '-') here, chomping?, mark]; rfl,
        rfl⟩
  | keep =>
      exact ⟨some .keep, by simp [takeChomping, peek_eq (p := .char '+') here, chomping?, mark]; rfl,
        rfl⟩

/-- A header that tells what happens to the line breaks at the end. -/
theorem blockHeader_eq (chomping : Chomping) (here : c.rest = mark chomping ++ .char '\n' :: r) :
    blockHeader start c = .ok (chomping, none, c.past (mark chomping ++ [.char '\n'])) := by
  obtain ⟨found, taken, meant⟩ := takeChomping_eq chomping here
  have next := past_rest here
  have increment : takeIncrement start (c.past (mark chomping)) =
      .ok (none, c.past (mark chomping)) := by
    rw [takeIncrement, peek_eq next]
    rfl
  obtain ⟨blank, skip, ends, line⟩ := headerEnd_eq next
  rw [blockHeader, taken]
  simp only [increment, bind, Except.bind, Option.isSome_none, Bool.false_eq_true, and_false,
    if_false, blank, skip, ends, line]
  simp [meant, pure, Except.pure, past_append]

/-- A header that tells the indentation as well. -/
theorem blockHeader_two (chomping : Chomping)
    (here : c.rest = .char '2' :: mark chomping ++ .char '\n' :: r) :
    blockHeader start c =
      .ok (chomping, some 2, c.past (.char '2' :: mark chomping ++ [.char '\n'])) := by
  have none_ : takeChomping c = (none, c) := by
    rw [takeChomping, peek_eq here]
    rfl
  have increment : takeIncrement start c = .ok (some 2, c.step) := by
    rw [takeIncrement, peek_eq here]
    rfl
  obtain ⟨found, taken, meant⟩ := takeChomping_eq chomping (step_rest here)
  obtain ⟨blank, skip, ends, line⟩ := headerEnd_eq (past_rest (step_rest here))
  rw [blockHeader, none_]
  simp only [increment, bind, Except.bind, taken, Option.isNone_none, Option.isSome_some, and_self,
    if_true, blank, skip, ends, line]
  simp [meant, pure, Except.pure, past_append, past_cons]

/-! ## The block -/

theorem least_eq (parent : Nat) : (max ((parent : Int) + 1) 1).toNat = parent + 1 := by
  omega

section

variable {d : Cursor} {chomping : Chomping} {breaks : Text} {body : BlockBody}

theorem block_of_first {column : Nat} (header : blockHeader start c = .ok (chomping, none, e))
    (first : blockIndentation (e.rest.length + 1) e = (breaks, column, d))
    (read : blockBody false (max (parent + 1) column) (e.rest.length + 1) breaks d = body) :
    block false parent start c =
      .ok (body.text ++ kept chomping body.ending body.breaks, body.stop) := by
  rw [block, header]
  simp only [bind, Except.bind, least_eq, first, read]
  cases chomping <;> rfl

theorem block_of_increment (header : blockHeader start c = .ok (chomping, some n, e))
    (blank : blockBreaks (parent + 1 + n - 1) (e.rest.length + 1) e = (breaks, d))
    (read : blockBody false (parent + 1 + n - 1) (e.rest.length + 1) breaks d = body) :
    block false parent start c =
      .ok (body.text ++ kept chomping body.ending body.breaks, body.stop) := by
  rw [block, header]
  simp only [bind, Except.bind, least_eq, blank, read]
  cases chomping <;> rfl

end

/-- A block whose first line shows the indentation. -/
theorem block_shown (h : Blocked indent t x) (space : ∀ p ∈ t.head?, isSpace p = false)
    (header : blockHeader start c = .ok (chompingOf t, none, e)) (column : e.column = 0)
    (here : e.rest = spaces indent ++ (x ++ (spaces k ++ s))) (deep : parent < indent)
    (left : k ≤ parent) (shown : ∀ p ∈ s.head?, isBlank p = false) :
    block false parent start c = .ok (t.map softened, e.past (spaces indent ++ (x ++ spaces k))) := by
  obtain ⟨p, u, y, rfl, rfl, unbroken⟩ := h.head
  have indented := past_spaces here
  rw [column, Nat.zero_add] at indented
  obtain ⟨text, ending, after, whole, read⟩ :=
    h.read indented (past_rest here) (Nat.lt_of_le_of_lt left deep) shown
  have within : indent < e.rest.length + 1 := by
    rw [here, List.length_append, length_spaces]
    omega
  have first := blockIndentation_eq here (space p rfl) unbroken within
  rw [column, if_neg (by omega), Nat.zero_add] at first
  have widest : max (parent + 1) indent = indent := by omega
  have body : blockBody false (max (parent + 1) indent) (e.rest.length + 1) []
      (e.past (spaces indent)) =
        ⟨text, ending, after, (e.past (spaces indent)).past (p :: y ++ spaces k)⟩ := by
    rw [widest]
    exact read _ _ (Nat.lt_succ_of_le (past_length_le here))
  rw [block_of_first header first body, whole, past_append e (spaces indent)]

/-- The column after blank lines and an indentation. -/
theorem past_blank (breaks : Breaks b) (column : e.column = 0)
    (here : e.rest = b ++ (spaces k ++ s)) : (e.past (b ++ spaces k)).column = k := by
  have spaced := past_spaces (past_rest here)
  have start_ : (e.past b).column = 0 := by
    cases b with
    | nil => exact column
    | cons p b => exact past_breaks breaks here
  rw [past_append, spaced, start_, Nat.zero_add]

/-- A block whose header tells the indentation, with blank lines first. -/
theorem block_told (h : Blocked (parent + 2) t x) (breaks : Breaks b)
    (header : blockHeader start c = .ok (chompingOf (b ++ t), some 2, e)) (column : e.column = 0)
    (here : e.rest = b ++ (spaces (parent + 2) ++ (x ++ (spaces k ++ s)))) (left : k ≤ parent)
    (shown : ∀ p ∈ s.head?, isBlank p = false) :
    block false parent start c =
      .ok ((b ++ t).map softened, e.past (b ++ spaces (parent + 2) ++ (x ++ spaces k))) := by
  obtain ⟨p, u, y, rfl, rfl, unbroken⟩ := h.head
  have place : (e.past (b ++ spaces (parent + 2))).rest = p :: y ++ (spaces k ++ s) :=
    past_rest (here.trans (List.append_assoc _ _ _).symm)
  obtain ⟨text, ending, after, whole, read⟩ :=
    h.read (past_blank breaks column here) place (by omega) shown
  have enough : b.length < e.rest.length + 1 := by
    rw [here, List.length_append]
    omega
  have blank : blockBreaks (parent + 2) (e.rest.length + 1) e =
      (b.map softened, e.past (b ++ spaces (parent + 2))) :=
    blockBreaks_eq (here.trans (List.append_assoc _ _ _).symm) column breaks (Nat.le_refl _)
      (.inl rfl) (by rintro z ⟨⟩; exact unbroken) enough
  have body := read (e.rest.length + 1) (b.map softened)
    (Nat.lt_succ_of_le (past_length_le (here.trans (List.append_assoc _ _ _).symm)))
  have suffix : chompingOf (b ++ p :: u) = chompingOf (p :: u) :=
    chompingOf_append b (by rintro z ⟨⟩; exact layout_unbroken unbroken) (List.cons_ne_nil _ _)
  rw [block_of_increment header blank body, suffix, List.append_assoc, whole, List.map_append,
    past_append e (b ++ spaces (parent + 2))]

/-- A block of blank lines. -/
theorem block_blank (breaks : Breaks b) (header : blockHeader start c = .ok (.keep, some 2, e))
    (column : e.column = 0) (here : e.rest = b ++ (spaces k ++ s)) (left : k ≤ parent)
    (shown : ∀ p ∈ s.head?, isBlank p = false) :
    block false parent start c = .ok (b.map softened, e.past (b ++ spaces k)) := by
  have enough : b.length < e.rest.length + 1 := by
    rw [here, List.length_append]
    omega
  have blank : blockBreaks (parent + 2) (e.rest.length + 1) e =
      (b.map softened, e.past (b ++ spaces k)) :=
    blockBreaks_eq (here.trans (List.append_assoc _ _ _).symm) column breaks (by omega)
      (.inr fun p head => (Bool.or_eq_false_iff.mp (isBlank_eq_false (shown p head)).1).1)
      (fun p head => (isBlank_eq_false (shown p head)).2) enough
  have body : blockBody false (parent + 2) (e.rest.length + 1) (b.map softened)
      (e.past (b ++ spaces k)) = ⟨[], [], b.map softened, e.past (b ++ spaces k)⟩ := by
    have column' := past_blank breaks column here
    rw [blockBody, if_neg]
    rintro ⟨same, -⟩
    omega
  exact block_of_increment header blank body

end Scalar

/-! ## What is written -/

namespace Layout

open Scalar

variable {indent parent k start : Nat} {c : Cursor} {p : CodePoint} {s t l b : Text}

theorem blockHeader_mark (t : Text) :
    Layout.blockHeader t =
      (if t.head?.any fun p => isSpace p || isBreak p then [.char '2'] else []) ++
        mark (chompingOf t) := by
  have two : Text.ofNat step = [.char '2'] := by decide
  rw [Layout.blockHeader, chompingOf, two]
  congr 1
  cases t.reverse with
  | nil => rfl
  | cons last before =>
      simp only
      split
      · rfl
      · split <;> rfl

theorem blockLines_breaks (breaks : ∀ p ∈ b, isBreak p = true) (t : Text) :
    blockLines indent true (b ++ t) = b ++ blockLines indent true t := by
  induction b with
  | nil => rfl
  | cons p b ih =>
      obtain ⟨first, more⟩ := List.forall_mem_cons.mp breaks
      rw [List.cons_append, blockLines, if_pos first, ih more]
      rfl

theorem blockLines_line (line : ∀ p ∈ l, isBreak p = false) (t : Text) :
    blockLines indent false (l ++ t) = l ++ blockLines indent false t := by
  induction l with
  | nil => rfl
  | cons p l ih =>
      obtain ⟨first, more⟩ := List.forall_mem_cons.mp line
      rw [List.cons_append, blockLines, if_neg (by rw [first]; simp), if_neg Bool.false_ne_true,
        ih more]
      rfl

theorem blockLines_start (some_ : l ≠ []) (line : ∀ p ∈ l, isBreak p = false) (t : Text) :
    blockLines indent true (l ++ t) = spaces indent ++ (l ++ blockLines indent false t) := by
  obtain ⟨p, l, rfl⟩ := List.exists_cons_of_ne_nil some_
  obtain ⟨first, more⟩ := List.forall_mem_cons.mp line
  rw [List.cons_append, blockLines, if_neg (by rw [first]; simp), if_pos rfl,
    blockLines_line more]
  rfl

/-- The lines of a text that begins with a line are written as one of the ways to write them. -/
theorem blockLines_blocked {ps : List Text} (h : Divided isBreak t ps)
    (writable : ∀ p ∈ t, isWritable p = true) (some_ : t ≠ [])
    (first : ∀ p ∈ t.head?, isBreak p = false) :
    ∃ x, blockLines indent true t = spaces indent ++ x ∧ Blocked indent t x := by
  induction ps using List.twoStepInduction generalizing t with
  | nil =>
      cases h
      exact absurd rfl some_
  | singleton l =>
      cases h with
      | @cons k _ u _ nonempty all ends rest =>
          cases rest
          obtain ⟨p, l, rfl⟩ := List.exists_cons_of_ne_nil nonempty
          obtain rfl : false = k := (first p rfl).symm.trans (all p List.mem_cons_self)
          refine ⟨_, blockLines_start nonempty all [], ?_⟩
          rw [List.append_nil, blockLines, if_neg Bool.false_ne_true]
          exact .line nonempty fun q among =>
            (isBreak_writable (writable q (List.mem_append_left _ among))).trans (all q among)
  | cons_cons l b ps ih _ =>
      cases h with
      | @cons k _ u _ nonempty all ends rest =>
          obtain ⟨p, l, rfl⟩ := List.exists_cons_of_ne_nil nonempty
          obtain rfl : false = k := (first p rfl).symm.trans (all p List.mem_cons_self)
          have line : ∀ q ∈ p :: l, Cursor.isBreak q = false := fun q among =>
            (isBreak_writable (writable q (List.mem_append_left _ among))).trans (all q among)
          cases rest with
          | @cons k _ u _ nonempty' all' ends' rest' =>
              obtain ⟨q, b, rfl⟩ := List.exists_cons_of_ne_nil nonempty'
              obtain rfl : k = true := by
                rw [← all' q List.mem_cons_self]
                simpa using ends q rfl
              have breaks : Breaks (q :: b) := fun z among => by
                have here := writable z (List.mem_append_right _ (List.mem_append_left _ among))
                exact ⟨(isBreak_writable here).trans (all' z among), (writable_ne here).1⟩
              have lines : blockLines indent false (q :: b ++ u) =
                  q :: b ++ blockLines indent true u := by
                rw [List.cons_append, blockLines, if_pos (all' q List.mem_cons_self),
                  blockLines_breaks (fun z among => all' z (List.mem_cons_of_mem _ among))]
                rfl
              rw [blockLines_start nonempty all, lines]
              refine ⟨_, rfl, ?_⟩
              by_cases last : u = []
              · subst last
                rw [List.append_nil, blockLines, if_pos rfl, List.append_nil]
                exact .ended nonempty line breaks
              · obtain ⟨x, written, blocked⟩ := ih rest'
                  (fun z among => writable z
                    (List.mem_append_right _ (List.mem_append_right _ among))) last
                  (by simpa using ends')
                rw [written]
                simpa only [List.append_assoc] using Blocked.more nonempty line breaks blocked

theorem chompingOf_breaks (some_ : b ≠ []) (breaks : ∀ p ∈ b, isBreak p = true) :
    chompingOf b = .keep := by
  obtain ⟨a, q, rfl⟩ := List.eq_nil_or_concat b |>.resolve_left some_
  rw [List.concat_eq_append] at breaks ⊢
  have last : a.getLast?.all isBreak = true := by
    cases final : a.getLast? with
    | none => rfl
    | some z => exact breaks z (List.mem_append_left _ (List.mem_of_getLast? final))
  rw [chompingOf_concat, if_neg (by simp [breaks q (by simp)]), if_pos last]

theorem leading_breaks (t : Text) : ∃ b u, t = b ++ u ∧ (∀ p ∈ b, isBreak p = true) ∧
    ∀ p ∈ u.head?, isBreak p = false := by
  refine ⟨t.takeWhile isBreak, t.dropWhile isBreak, List.takeWhile_append_dropWhile.symm,
    fun p among => List.all_eq_true.mp List.all_takeWhile p among, fun p head => ?_⟩
  have first := List.head?_dropWhile_not isBreak t
  rw [head] at first
  simpa using first

/-- A text that is written as a literal block is read again, each line break as it is read. -/
theorem block_read (literal : allowsLiteral t = true)
    (here : c.rest = Layout.blockHeader t ++
      .char '\n' :: (blockLines (parent + 2) true t ++ (spaces k ++ s)))
    (left : k ≤ parent) (shown : ∀ p ∈ s.head?, Cursor.isBlank p = false) :
    block false parent start c = .ok (t.map softened, c.past (Layout.blockHeader t ++ [.char '\n'] ++
      (blockLines (parent + 2) true t ++ spaces k))) := by
  simp only [allowsLiteral, needsEscapes, Bool.and_eq_true, Bool.not_eq_true', Bool.or_eq_false_iff,
    List.any_eq_false, Bool.not_eq_false, List.isEmpty_eq_false_iff] at literal
  obtain ⟨⟨some_, writable, -⟩, -⟩ := literal
  have writable : ∀ p ∈ t, isWritable p = true := writable
  have column : (c.past (Layout.blockHeader t ++ [.char '\n'])).column = 0 := by
    rw [Cursor.past_append]
    exact (Cursor.past_break (Cursor.past_rest here) (by decide) (by decide)).1
  have next : (c.past (Layout.blockHeader t ++ [.char '\n'])).rest =
      blockLines (parent + 2) true t ++ (spaces k ++ s) :=
    Cursor.past_rest (here.trans (by simp))
  rw [Cursor.past_append]
  rw [blockHeader_mark] at here column next ⊢
  by_cases hidden : (t.head?.any fun p => isSpace p || isBreak p) = true
  · rw [if_pos hidden] at here column next ⊢
    have header := @blockHeader_two start _ _ (chompingOf t) here
    obtain ⟨b, u, rfl, broken, first⟩ := leading_breaks t
    have breaks : Breaks b := fun p among => by
      have here := writable p (List.mem_append_left u among)
      exact ⟨(isBreak_writable here).trans (broken p among), (writable_ne here).1⟩
    rw [blockLines_breaks broken] at next ⊢
    by_cases blank : u = []
    · subst blank
      simp only [List.append_nil, blockLines, if_true] at next header column some_ ⊢
      rw [chompingOf_breaks some_ broken] at header next column ⊢
      exact block_blank breaks header column next left shown
    · obtain ⟨x, written, blocked⟩ := @blockLines_blocked (parent + 2) _ _
        (runs_divided isBreak u) (fun p among => writable p (List.mem_append_right b among)) blank
        first
      simp only [written, List.append_assoc] at next ⊢
      have read := block_told blocked breaks header column (by simpa using next) left shown
      simpa using read
  · rw [if_neg hidden, List.nil_append] at here column next ⊢
    have header := @blockHeader_eq start _ _ (chompingOf t) here
    have plain : ∀ p ∈ t.head?, isSpace p = false ∧ isBreak p = false := by
      intro p head
      rw [head] at hidden
      simpa using hidden
    obtain ⟨x, written, blocked⟩ := @blockLines_blocked (parent + 2) _ _
      (runs_divided isBreak t) writable some_ fun p head => (plain p head).2
    simp only [written, List.append_assoc] at next ⊢
    exact block_shown blocked (fun p head => (plain p head).1) header column (by simpa using next)
      (by omega) left shown

end Layout

end ApprovedOps.Yaml
