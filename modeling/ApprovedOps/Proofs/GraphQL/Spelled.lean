import ApprovedOps.Proofs.GraphQL.Reading

/-! # Texts that spell words

A text spells words if they can be read in it one after the other, with white space in between.
Such a text can be indented, and texts that spell words can be put together, as long as no two
lexemes run into each other. What spells words is read as these words.
-/

namespace ApprovedOps

namespace GraphQL

variable {s t rest : Text} {w : Word} {ws us : List Word}

/-- Can a lexeme end in front of the text? -/
def Apart (rest : Text) : Prop :=
  ∀ c ∈ rest.head?, c.isNameContinue = false ∧ c ≠ .char '.' ∧ c ≠ .char '"'

/-- Is the text the lexeme of a word, wherever it stands? -/
def Lexes (t : Text) (w : Word) : Prop :=
  t ≠ [] ∧ ∀ (k : Nat) (rest : Text), Apart rest →
    Lexed.scanFrom k (t ++ rest) = .token ⟨w.1, k, w.2⟩ :: Lexed.scanFrom (k + t.length) rest

/-- The text with more spaces at the beginning of every line but the first. -/
def shift (n : Nat) (t : Text) : Text :=
  t.flatMap fun p => if p = .char '\n' then p :: List.replicate n (.char ' ') else [p]

theorem shift_nil (n : Nat) : shift n [] = [] := rfl

theorem shift_append (n : Nat) (s t : Text) : shift n (s ++ t) = shift n s ++ shift n t :=
  List.flatMap_append

theorem shift_cons (n : Nat) (p : CodePoint) (t : Text) : shift n (p :: t) =
    (if p = .char '\n' then p :: List.replicate n (.char ' ') else [p]) ++ shift n t :=
  List.flatMap_cons

theorem shift_flat {n : Nat} (oneLine : .char '\n' ∉ t) : shift n t = t := by
  induction t with
  | nil => rfl
  | cons p t ih =>
      obtain ⟨other, later⟩ := not_or.mp fun h => oneLine (List.mem_cons.mpr h)
      rw [shift_cons, if_neg (Ne.symm other), ih later, List.singleton_append]

theorem shift_spaces (m n : Nat) :
    shift m (List.replicate n (.char ' ')) = List.replicate n (.char ' ') :=
  shift_flat fun among => absurd (List.eq_of_mem_replicate among) (by decide)

theorem shift_shift (m n : Nat) (t : Text) : shift m (shift n t) = shift (m + n) t := by
  induction t with
  | nil => rfl
  | cons p t ih =>
      rw [shift_cons, shift_append, ih, shift_cons (m + n)]
      split
      next break_ =>
        rw [shift_cons, if_pos break_, shift_spaces, List.cons_append,
          List.replicate_append_replicate]
      next other => rw [shift_cons, if_neg other, shift_nil, List.append_nil]

theorem shift_zero (t : Text) : shift 0 t = t := by
  induction t with
  | nil => rfl
  | cons p t ih =>
      rw [shift_cons, ih]
      split <;> rfl

theorem apart_append (first : Apart s) (second : Apart t) : Apart (s ++ t) := by
  cases s with
  | nil => exact second
  | cons p s => exact first

theorem apart_shift {n : Nat} (h : Apart t) : Apart (shift n t) := by
  cases t with
  | nil => exact h
  | cons p t =>
      rw [shift_cons]
      intro c first
      refine h c ?_
      split at first
      next => exact first
      next => exact first

/-- What a test says of every mark it says of a code point that is one. -/
theorem of_isMark {P : Char → Bool} (all : "!$&():=@[]\x7b|\x7d".toList.all P = true) {c : Char}
    (h : Lexed.isMark (.char c) = true) : P c = true :=
  List.all_eq_true.mp all c (List.contains_iff_mem.mp h)

theorem isMark_other {c : Char} (h : Lexed.isMark (.char c) = true) :
    Lexed.isIgnored (.char c) = false ∧ c ≠ '#' ∧ c ≠ '"' ∧ c ≠ '\n' := by
  have solid := of_isMark (P := fun c => !Lexed.isIgnored (.char c)) (by decide) h
  have other := of_isMark (P := fun c => c ≠ '#' ∧ c ≠ '"' ∧ c ≠ '\n') (by decide) h
  exact ⟨(Bool.not_eq_true' _).mp solid, of_decide_eq_true other⟩

/-- Does the text spell the words? -/
inductive Spelled : Text → List Word → Prop where
  | nil : Spelled [] []
  | gap {p : CodePoint} {t : Text} {ws : List Word} (ignored : Lexed.isIgnored p = true)
    (rest : Spelled t ws) : Spelled (p :: t) ws
  | mark {c : Char} {t : Text} {ws : List Word} (isMark : Lexed.isMark (.char c) = true)
    (rest : Spelled t ws) : Spelled (.char c :: t) (.mark c :: ws)
  | dots {t : Text} {ws : List Word} (rest : Spelled t ws) :
    Spelled (Text.ofString "..." ++ t) (.dots :: ws)
  | word {t rest : Text} {w : Word} {ws : List Word} (lexeme : ∀ n, Lexes (shift n t) w)
    (apart : Apart rest) (later : Spelled rest ws) : Spelled (t ++ rest) (w :: ws)

namespace Spelled

theorem append (first : Spelled s ws) (second : Spelled t us) (apart : Apart t) :
    Spelled (s ++ t) (ws ++ us) := by
  induction first with
  | nil => exact second
  | gap ignored _ ih => exact .gap ignored ih
  | mark isMark _ ih => exact .mark isMark ih
  | dots _ ih =>
      rw [List.append_assoc]
      exact .dots ih
  | word lexeme ends _ ih =>
      rw [List.append_assoc]
      exact .word lexeme (apart_append ends apart) ih

theorem gaps {gap : Text} (ignored : ∀ p ∈ gap, Lexed.isIgnored p = true) (h : Spelled t ws) :
    Spelled (gap ++ t) ws := by
  induction gap with
  | nil => exact h
  | cons p gap ih =>
      obtain ⟨here, later⟩ := List.forall_mem_cons.mp ignored
      exact .gap here (ih later)

/-- The words of a text are those of the text with more indentation. -/
theorem shift (h : Spelled t ws) (n : Nat) : Spelled (shift n t) ws := by
  induction h with
  | nil => exact .nil
  | @gap p t ws ignored _ ih =>
      rw [shift_cons]
      split
      next =>
        refine .gap ignored (gaps (fun q among => ?_) ih)
        rw [List.eq_of_mem_replicate among]
        rfl
      next => exact .gap ignored ih
  | @mark c t ws isMark _ ih =>
      rw [shift_cons, if_neg fun same => (isMark_other isMark).2.2.2 (CodePoint.char.inj same)]
      exact .mark isMark ih
  | dots _ ih =>
      rw [shift_append]
      exact .dots ih
  | word lexeme apart _ ih =>
      rw [shift_append]
      refine .word (fun m => ?_) (apart_shift apart) ih
      rw [shift_shift]
      exact lexeme (m + n)

/-- A text that spells words is read as these words. -/
theorem scan (h : Spelled t ws) (k : Nat) :
    (Lexed.scanFrom k t).map Lexed.word? = (ws ++ [Word.eof]).map some := by
  induction h generalizing k with
  | nil =>
      rw [Lexed.scanFrom]
      rfl
  | gap ignored _ ih =>
      rw [Lexed.scanFrom, if_pos ignored]
      exact ih _
  | @mark c t ws isMark _ ih =>
      obtain ⟨solid, noHash, noQuote, -⟩ := isMark_other isMark
      have taken : Lexed.tokenAt (.char c) t = .ok (.mark [.char c], [], 0) := by
        rw [Lexed.tokenAt, if_neg fun same => noQuote (CodePoint.char.inj same), if_pos isMark]
      rw [Lexed.scanFrom, if_neg (Bool.eq_false_iff.mp solid),
        if_neg fun same => noHash (CodePoint.char.inj same), taken]
      simp only [List.map_cons, List.cons_append, List.drop_zero, ih]
      rfl
  | @dots t ws _ ih =>
      have taken : Lexed.tokenAt (.char '.') (.char '.' :: .char '.' :: t) =
          .ok (.mark (Text.ofString "..."), [], 2) := rfl
      have text : Text.ofString "..." ++ t = .char '.' :: .char '.' :: .char '.' :: t := rfl
      rw [text, Lexed.scanFrom, if_neg (by decide), if_neg (by decide), taken]
      simp only [List.map_cons, List.cons_append, List.drop_succ_cons, List.drop_zero, ih]
      rfl
  | word lexeme apart _ ih =>
      have here := (lexeme 0).2 k _ apart
      rw [shift_zero] at here
      rw [here, List.map_cons, ih]
      rfl

end Spelled

end GraphQL

end ApprovedOps
