import ApprovedOps.Proofs.Variables.Accepted
import ApprovedOps.Proofs.Document.Lead

/-! # Tokens of JSON

JSON is a sequence of tokens and blanks whose brackets nest. In the lexemes of a document the tokens
are whole lexemes or sequences of them, and only their brackets count.
-/

namespace ApprovedOps

namespace Variables

open Json Json.Reader

/-! ## Sequences of tokens -/

/-- May the code point stand in a word or a number? -/
def inWord (c : CodePoint) : Bool :=
  c.isNameContinue || c = .char '.' || c = .char '+' || c = .char '-'

/-- Does every token end in front of the code point? -/
def joins (c : CodePoint) : Bool :=
  isBlank c || c = .char ',' || c = .char ':' || c = .char ']' || c = .char '}'

/-- Does every token end in front of the text? -/
def Joins (r : Text) : Prop :=
  ∀ c, r.head? = some c → joins c = true

/-- A sequence of tokens, with the closing brackets that are due before and after it. -/
inductive Tokens : List Char → Text → List Char → Prop where
  | nil {due} : Tokens due [] due
  /-- A blank, a comma or a colon. -/
  | between {c due s due'} : isBlank c = true ∨ c = .char ',' ∨ c = .char ':' → Tokens due s due' →
      Tokens due (c :: s) due'
  | brace {due s due'} : Tokens ('}' :: due) s due' → Tokens due (.char '{' :: s) due'
  | bracket {due s due'} : Tokens (']' :: due) s due' → Tokens due (.char '[' :: s) due'
  | close {c due s due'} : c = '}' ∨ c = ']' → Tokens due s due' → Tokens (c :: due) (.char c :: s) due'
  | string {body due s due'} : StringBody body → Joins s → Tokens due s due' →
      Tokens due (Json.between body ++ s) due'
  /-- A word or a number. -/
  | word {w due s due'} : (∀ c ∈ w, inWord c = true) → Joins s → Tokens due s due' →
      Tokens due (w ++ s) due'

/-- May the text stand in front of any sequence of tokens? -/
def Extends (s : Text) : Prop :=
  ∀ due due' r, Joins r → Tokens due r due' → Tokens due (s ++ r) due'

theorem gap_tokens {g r : Text} {due due' : List Char} (h : Gap Manner.plain g)
    (rest : Tokens due r due') : Tokens due (g ++ r) due' := by
  have blanks := gap_blanks rfl h
  clear h
  induction g with
  | nil => exact rest
  | cons c g ih =>
      obtain ⟨blank, blanks⟩ := List.forall_mem_cons.mp blanks
      exact .between (.inl blank) (ih blanks)

theorem gap_joins {g r : Text} (h : Gap Manner.plain g) (rest : Joins r) : Joins (g ++ r) := by
  cases g with
  | nil => exact rest
  | cons c g =>
      rintro d ⟨⟩
      simp [joins, gap_blanks rfl h c List.mem_cons_self]

theorem close_joins {c : Char} (bracket : c = '}' ∨ c = ']') (r : Text) :
    Joins (.char c :: r) := by
  rintro d ⟨⟩
  obtain rfl | rfl := bracket <;> rfl

theorem series_tokens {α : Type} {each : α → Text → Prop} {xs : List α} {s : Text}
    (elements : ∀ x ∈ xs, ∀ s, each x s → Extends s) (h : Series Manner.plain each xs s) :
    Extends s := by
  induction h with
  | last gap laid tail =>
      intro due due' r joined rest
      have tail := tail_plain tail
      rw [List.append_assoc, List.append_assoc]
      exact gap_tokens gap (elements _ List.mem_cons_self _ laid _ _ _ (gap_joins tail joined)
        (gap_tokens tail rest))
  | next gap laid gap' others ih =>
      intro due due' r joined rest
      have later := ih (fun x among => elements x (List.mem_cons_of_mem _ among)) due due' r joined rest
      have comma := Tokens.between (.inr (.inl rfl)) later
      rw [next_text]
      exact gap_tokens gap (elements _ List.mem_cons_self _ laid _ _ _
        (gap_joins gap' (by rintro d ⟨⟩; rfl)) (gap_tokens gap' comma))

theorem named_tokens {name s : Text} {v : Tree}
    (value : ∀ s, Laid Manner.plain v s → Extends s)
    (h : Named Manner.plain (Laid Manner.plain) (name, v) s) : Extends s := by
  cases h with
  | mk body gap gap' laid =>
      intro due due' r joined rest
      have colon := Tokens.between (c := .char ':') (.inr (.inr rfl))
        (gap_tokens gap' (value _ laid _ _ _ joined rest))
      simp only [List.append_assoc, List.cons_append]
      exact .string body (gap_joins gap (by rintro d ⟨⟩; rfl)) (gap_tokens gap colon)

theorem inWord_digit {d : Char} (h : d.isDigit = true) : inWord (.char d) = true := by
  simp [inWord, CodePoint.isNameContinue, Char.isAlphanum, h]

/-- A plain text of a tree is a sequence of tokens that leaves nothing due. -/
theorem laid_tokens (v : Tree) : ∀ s, Laid Manner.plain v s → Extends s := by
  induction v using Tree.induct with
  | null =>
      intro s h due due' r joined rest
      cases h with
      | null => exact .word (by decide) joined rest
      | placeholder comments => cases comments
  | word w v =>
      intro s h due due' r joined rest
      cases h with
      | word among =>
          have inside : ∀ w ∈ words, ∀ c ∈ w.1, inWord c = true := by decide
          exact .word (inside _ among) joined rest
  | number w =>
      intro s h due due' r joined rest
      cases h with
      | number written =>
          exact .word (number_chars written (fun _ digit => inWord_digit digit) (by decide)) joined rest
  | string body =>
      intro s h due due' r joined rest
      cases h with
      | string body_ => exact .string body_ joined rest
  | array items ih =>
      intro s h due due' r joined rest
      cases h with
      | noItem gap =>
          rw [brackets_text]
          exact .bracket (gap_tokens gap (.close (.inr rfl) rest))
      | array series =>
          rw [brackets_text]
          exact .bracket (series_tokens ih series _ _ _ (close_joins (.inr rfl) r)
            (.close (.inr rfl) rest))
  | object members ih =>
      intro s h due due' r joined rest
      cases h with
      | noMember gap =>
          rw [brackets_text]
          exact .brace (gap_tokens gap (.close (.inl rfl) rest))
      | object series =>
          rw [brackets_text]
          exact .brace (series_tokens (fun x among s named => named_tokens (ih x among) named) series
            _ _ _ (close_joins (.inl rfl) r) (.close (.inl rfl) rest))

theorem joins_nil : Joins [] := nofun

/-- A plain text is a sequence of tokens. -/
theorem written_tokens {v : Tree} {t : Text} (h : Written Manner.plain v t) : Tokens [] t [] := by
  obtain ⟨gap, laid, ending⟩ := h
  have ending := gap_tokens (ending_plain ending) (@Tokens.nil [])
  have joined := gap_joins (ending_plain ‹Ending _ _›) joins_nil
  rw [List.append_nil] at ending joined
  exact gap_tokens gap (laid_tokens v _ laid _ _ _ joined ending)

/-- Only the text of an object ends with a closing brace. -/
theorem laid_object {v : Tree} {s : Text} (h : Laid Manner.plain v s)
    (last : s.getLast? = some (.char '\x7d')) :
    ∃ members inner, v = .object members ∧ s = .char '\x7b' :: (inner ++ [.char '\x7d']) ∧
      Tokens [] inner [] := by
  have noWord (all : ∀ c ∈ s, inWord c = true) : False := by
    cases all _ (List.mem_of_getLast? last)
  have ends (c d : Char) (r : Text) : (.char c :: (r ++ [.char d]) : Text).getLast? = some (.char d) := by
    rw [← List.cons_append, List.getLast?_append]
    rfl
  cases h with
  | null => exact (noWord (by decide)).elim
  | placeholder comments => cases comments
  | word among =>
      have inside : ∀ w ∈ words, ∀ c ∈ w.1, inWord c = true := by decide
      exact (noWord (inside _ among)).elim
  | number written =>
      exact (noWord (number_chars written (fun _ digit => inWord_digit digit) (by decide))).elim
  | @string body _ =>
      rw [Json.between, ends] at last
      cases last
  | noItem gap | array series =>
      rw [ends] at last
      cases last
  | @noMember g gap =>
      have inside := gap_tokens gap (@Tokens.nil [])
      rw [List.append_nil] at inside
      exact ⟨[], g, rfl, rfl, inside⟩
  | @object members s series =>
      have inside := series_tokens (fun x _ s named => named_tokens (laid_tokens x.2) named) series
        [] [] [] joins_nil .nil
      rw [List.append_nil] at inside
      exact ⟨members, s, rfl, rfl, inside⟩

theorem written_object {v : Tree} {t : Text} (h : Written Manner.plain v t)
    (last : t.getLast? = some (.char '\x7d')) :
    ∃ g members inner, Gap Manner.plain g ∧ v = .object members ∧
      t = g ++ .char '\x7b' :: (inner ++ [.char '\x7d']) ∧ Tokens [] inner [] := by
  obtain ⟨gap, laid, ending⟩ := h
  rename_i g s e
  rw [List.getLast?_append, List.getLast?_append] at last
  cases end_ : e.getLast? with
  | some c =>
      rw [end_, Option.some_or, Option.some_or] at last
      cases last
      cases gap_blanks rfl (ending_plain ending) _ (List.mem_of_getLast? end_)
  | none =>
      obtain rfl : e = [] := List.getLast?_eq_none_iff.mp end_
      have last : s.getLast? = some (.char '\x7d') := by
        cases here : s.getLast? with
        | none =>
            obtain ⟨c, r, rfl, -⟩ := laid_opens laid
            simp at here
        | some c =>
            rw [here] at last
            exact last
      obtain ⟨members, inner, rfl, rfl, tokens⟩ := laid_object laid last
      exact ⟨g, members, inner, gap, rfl, by simp, tokens⟩

/-! ## Strings in a row -/

/-- A text in which every string ends. -/
inductive Complete : Text → Prop where
  | nil : Complete []
  | other {c s} : c ≠ .char '"' → Complete s → Complete (c :: s)
  | string {tail s} : stringTail tail = some tail.length → Complete s →
      Complete (.char '"' :: (tail ++ s))

theorem complete_tail {c : CodePoint} {s : Text} (h : Complete (c :: s)) (other : c ≠ .char '"') :
    Complete s := by
  cases h with
  | other _ rest => exact rest
  | string => exact absurd rfl other

theorem stringTail_append {s : Text} (t : Text) {n : Nat} (h : stringTail s = some n) :
    stringTail (s ++ t) = some n := by
  obtain ⟨a, r, rfl, -, ends⟩ := stringTail_split h
  rw [List.append_assoc]
  exact ends (r ++ t)

/-- What follows no quote in front of three of them follows a complete text. -/
theorem apart_cons {c : CodePoint} {s A B : Text} (other : c ≠ .char '"') (complete : Complete A)
    (text : c :: s = A ++ (Lexeme.tripleQuote ++ B)) :
    ∃ A', Complete A' ∧ s = A' ++ (Lexeme.tripleQuote ++ B) := by
  cases A with
  | nil => exact absurd (List.cons.inj text).1 other
  | cons d A =>
      obtain ⟨rfl, rest⟩ := List.cons.inj text
      exact ⟨A, complete_tail complete other, rest⟩

/-- Where tokens are read, no string is followed by another one. -/
theorem tokens_apart {due due' : List Char} {s B : Text} (h : Tokens due s due') :
    ∀ A, Complete A → s ≠ A ++ (Lexeme.tripleQuote ++ B) := by
  induction h with
  | nil =>
      intro A complete text
      simp [Lexeme.tripleQuote] at text
  | between kind rest ih =>
      intro A complete text
      have other : ∀ c, isBlank c = true ∨ c = .char ',' ∨ c = .char ':' → c ≠ .char '"' := by
        rintro c (blank | rfl | rfl) <;> rintro ⟨⟩
        cases blank
      obtain ⟨A', complete', text'⟩ := apart_cons (other _ kind) complete text
      exact ih A' complete' text'
  | brace rest ih | bracket rest ih =>
      intro A complete text
      obtain ⟨A', complete', text'⟩ := apart_cons (by decide) complete text
      exact ih A' complete' text'
  | close bracket rest ih =>
      intro A complete text
      obtain rfl | rfl := bracket
      · obtain ⟨A', complete', text'⟩ := apart_cons (by decide) complete text
        exact ih A' complete' text'
      · obtain ⟨A', complete', text'⟩ := apart_cons (by decide) complete text
        exact ih A' complete' text'
  | @string body due s due' body_ joined rest ih =>
      intro A complete text
      have whole := stringTail_body body_ s
      simp only [Json.between, List.cons_append, List.append_assoc, List.nil_append] at text
      cases complete with
      | nil =>
          obtain ⟨-, text⟩ := List.cons.inj text
          cases body_ with
          | nil => cases joined _ (congrArg List.head? (List.cons.inj text).2)
          | plain quote slash printable _ => exact quote (List.cons.inj text).1
          | letter => cases (List.cons.inj text).1
          | numeric => cases (List.cons.inj text).1
      | other other => exact other (List.cons.inj text).1.symm
      | @string tail A ends complete =>
          rw [List.cons_append, List.append_assoc] at text
          obtain ⟨-, text⟩ := List.cons.inj text
          have long := stringTail_append (A ++ (Lexeme.tripleQuote ++ B)) ends
          rw [← text, whole] at long
          obtain rfl : body ++ [.char '"'] = tail := by
            have front := congrArg (List.take tail.length) text
            rw [List.take_left, ← Option.some.inj long] at front
            simpa [List.take_append, List.take_of_length_le (Nat.le_succ body.length)] using front
          refine ih A complete ?_
          simpa using text
  | @word w due s due' all joined rest ih =>
      intro A complete text
      induction w generalizing A with
      | nil => exact ih A complete text
      | cons c w later =>
          obtain ⟨first, all⟩ := List.forall_mem_cons.mp all
          obtain ⟨A', complete', text'⟩ :=
            apart_cons (by rintro rfl; cases first) complete text
          exact later all A' complete' text'

end Variables

end ApprovedOps
