import ApprovedOps.Proofs.Text.Order
import ApprovedOps.Yaml.Cursor

/-! # Places after a text

A text that stands at a place takes the reader to the place after it: there the rest of the document
is what follows the text, and the column counts from the last line break. The runs, blanks and line
breaks that a reader takes are such texts.
-/

namespace ApprovedOps.Yaml

/-- A text of spaces. -/
def spaces (n : Nat) : Text :=
  List.replicate n (.char ' ')

/-- A line break as it is read: the next-line control becomes a line feed. -/
def softened (p : CodePoint) : CodePoint :=
  if p.value = 0x85 then .char '\n' else p

namespace Cursor

variable {c : Cursor} {p : CodePoint} {s t r : Text}

/-- The place after a text that stands at a place. -/
def past (c : Cursor) (t : Text) : Cursor :=
  forward t.length c

/-- Code points that move the column by one: neither line breaks nor byte order marks. -/
def Inline (t : Text) : Prop :=
  ∀ p ∈ t, isBreak p = false ∧ p ≠ .char '\uFEFF'

/-! ## One code point -/

theorem step_rest (here : c.rest = p :: r) : c.step.rest = r := by
  rw [step, here]
  split
  · contradiction
  · cases ‹_ :: _ = _›
    split <;> rfl

theorem step_index (here : c.rest = p :: r) : c.step.index = c.index + 1 := by
  rw [step, here]
  split
  · contradiction
  · split <;> rfl

theorem step_inline (here : c.rest = p :: r) (inline : isBreak p = false)
    (unmarked : p ≠ .char '\uFEFF') : c.step.column = c.column + 1 ∧ c.step.line = c.line := by
  simp [step, here, inline, unmarked]

theorem step_break (here : c.rest = p :: r) (break_ : isBreak p = true) (other : p ≠ .char '\r') :
    c.step.column = 0 ∧ c.step.line = c.line + 1 := by
  simp [step, here, break_, other]

theorem step_line (c : Cursor) : c.line ≤ c.step.line := by
  rw [step]
  split
  · exact Nat.le_refl _
  · split
    · exact Nat.le_succ c.line
    · exact Nat.le_refl _

/-! ## Texts -/

@[simp] theorem past_nil (c : Cursor) : c.past [] = c := rfl

theorem past_cons (c : Cursor) (p : CodePoint) (t : Text) : c.past (p :: t) = c.step.past t := rfl

theorem past_one (c : Cursor) (p : CodePoint) : c.past [p] = c.step := rfl

theorem past_append (c : Cursor) (s t : Text) : c.past (s ++ t) = (c.past s).past t := by
  induction s generalizing c with
  | nil => rfl
  | cons p s ih => exact ih c.step

theorem past_rest (here : c.rest = t ++ r) : (c.past t).rest = r := by
  induction t generalizing c with
  | nil => exact here
  | cons p t ih => exact ih (step_rest here)

theorem past_length_le (here : c.rest = t ++ r) : (c.past t).rest.length ≤ c.rest.length := by
  rw [past_rest here, here, List.length_append]
  exact Nat.le_add_left _ _

theorem past_shorter (here : c.rest = t ++ r) (some_ : t ≠ []) :
    (c.past t).rest.length < c.rest.length := by
  rw [past_rest here, here, List.length_append]
  have := List.length_pos_of_ne_nil some_
  omega

theorem past_index (here : c.rest = t ++ r) : (c.past t).index = c.index + t.length := by
  induction t generalizing c with
  | nil => rfl
  | cons p t ih =>
      rw [past_cons, ih (step_rest here), step_index here, List.length_cons]
      omega

theorem past_line (c : Cursor) (t : Text) : c.line ≤ (c.past t).line := by
  induction t generalizing c with
  | nil => exact Nat.le_refl _
  | cons p t ih => exact Nat.le_trans (step_line c) (ih c.step)

theorem past_inline (here : c.rest = t ++ r) (inline : Inline t) :
    (c.past t).column = c.column + t.length ∧ (c.past t).line = c.line := by
  induction t generalizing c with
  | nil => exact ⟨rfl, rfl⟩
  | cons p t ih =>
      obtain ⟨first, rest⟩ := List.forall_mem_cons.mp inline
      obtain ⟨column, line⟩ := step_inline here first.1 first.2
      obtain ⟨columns, lines⟩ := ih (step_rest here) rest
      rw [past_cons, columns, lines, column, line, List.length_cons]
      exact ⟨by omega, rfl⟩

theorem inline_spaces (n : Nat) : Inline (spaces n) := by
  intro p among
  rw [List.eq_of_mem_replicate among]
  decide

theorem inline_append : Inline (s ++ t) ↔ Inline s ∧ Inline t :=
  List.forall_mem_append

theorem past_spaces {n : Nat} (here : c.rest = spaces n ++ r) :
    (c.past (spaces n)).column = c.column + n := by
  rw [(past_inline here (inline_spaces n)).1, spaces, List.length_replicate]

/-- A line break that starts a new line as soon as it is passed. -/
theorem past_break (here : c.rest = p :: r) (break_ : isBreak p = true) (other : p ≠ .char '\r') :
    (c.past [p]).column = 0 ∧ c.line < (c.past [p]).line := by
  obtain ⟨column, line⟩ := step_break here break_ other
  exact ⟨column, by rw [past_one, line]; omega⟩

/-- A line break and an indentation. -/
theorem past_newline {n : Nat} (here : c.rest = p :: spaces n ++ r) (break_ : isBreak p = true)
    (other : p ≠ .char '\r') : (c.past (p :: spaces n)).column = n := by
  have start := (past_break here break_ other).1
  have spaced := past_spaces (past_rest (t := [p]) here)
  rw [start, Nat.zero_add] at spaced
  exact spaced

/-- A text with a line break in it ends on another line. -/
theorem past_line_lt (here : c.rest = s ++ p :: t ++ r) (break_ : isBreak p = true)
    (other : p ≠ .char '\r') : c.line < (c.past (s ++ p :: t)).line := by
  have at_ : (c.past s).rest = p :: (t ++ r) := past_rest (by rw [here, List.append_assoc]; rfl)
  have := past_line c s
  have := (past_break at_ break_ other).2
  have := past_line ((c.past s).past [p]) t
  rw [past_append, ← List.singleton_append, past_append]
  omega

/-! ## What stands at a place -/

theorem peek_eq (here : c.rest = p :: r) : c.peek = some p := by
  rw [peek, here, List.head?_cons]

theorem isAt_eq (here : c.rest = p :: r) (class_ : CodePoint → Bool) :
    c.isAt class_ = class_ p := by
  rw [isAt, peek_eq here, Option.any_some]

theorem isAt_nil (here : c.rest = []) (class_ : CodePoint → Bool) : c.isAt class_ = false := by
  rw [isAt, peek, here]
  rfl

theorem isAtChar_eq (here : c.rest = p :: r) (x : Char) : c.isAtChar x = (p == .char x) := by
  rw [isAtChar, peek_eq here]
  by_cases same : p = .char x <;> simp [same]

theorem isAtChar_nil (here : c.rest = []) (x : Char) : c.isAtChar x = false := by
  rw [isAtChar, peek, here]
  rfl

theorem endsAt_zero (c : Cursor) (class_ : CodePoint → Bool) :
    c.endsAt 0 class_ = c.rest.head?.all class_ :=
  rfl

theorem peekAt_one (here : c.rest = p :: r) : c.peekAt 1 = r.head? := by
  rw [peekAt, here]
  rfl

/-! ## Runs and line breaks -/

theorem takeWhile_eq {class_ : CodePoint → Bool} (here : c.rest = t ++ r)
    (all : ∀ p ∈ t, class_ p = true) (ends : r.head?.any class_ = false) :
    c.takeWhile class_ = (t, c.past t) := by
  have run : c.rest.takeWhile class_ = t := by
    rw [here, List.takeWhile_append_of_pos all]
    cases r with
    | nil => exact List.append_nil t
    | cons q r =>
        rw [List.takeWhile_cons_of_neg (by simpa using ends), List.append_nil]
  rw [takeWhile, run]
  rfl

theorem skipWhile_eq {class_ : CodePoint → Bool} (here : c.rest = t ++ r)
    (all : ∀ p ∈ t, class_ p = true) (ends : r.head?.any class_ = false) :
    c.skipWhile class_ = c.past t := by
  rw [skipWhile, takeWhile_eq here all ends]

theorem lineBreak_eq (here : c.rest = p :: r) (break_ : isBreak p = true) (other : p ≠ .char '\r') :
    c.lineBreak = ([softened p], c.past [p]) := by
  rw [lineBreak, here]
  simp only [other, break_, false_and, if_false, if_true, softened, past_one]
  have values : p.value = 0x0A ∨ p.value = 0x0D ∨ p.value = 0x85 ∨ p.value = 0x2028 ∨
      p.value = 0x2029 := by
    simpa [isBreak, or_assoc] using break_
  rcases values with feed | return_ | next | line | paragraph
  · obtain rfl : p = .char '\n' := CodePoint.value_inj feed
    rfl
  · exact absurd (CodePoint.value_inj return_) other
  · rw [if_neg (by omega), if_pos next]
  · rw [if_pos (by omega), if_neg (by omega)]
  · rw [if_pos (by omega), if_neg (by omega)]

end Cursor

end ApprovedOps.Yaml
