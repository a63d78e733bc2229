import Mathlib.Data.List.Basic
import ApprovedOps.Proofs.GraphQL.Rereading.Operations

/-! # Readers that take the same again

A reader of operations and fragments looks at the tokens that it takes and at the one behind them, and
of these only at their kinds and values. So from the same words it takes the same again, in front of
whatever begins with the same word; an operation or a fragment as a whole even in front of anything.
The tokens that it takes nest, and no brace among them but the last one closes all brackets.
-/

namespace ApprovedOps

namespace GraphQL

open Reader (mark)

/-! ## Tokens that nest -/

/-- The closing brackets that are due after a token, the next one first; none if it closes another
    one, or is a brace that closes all. -/
def Token.nest (due : List Char) (t : Token) : Option (List Char) :=
  if t.kind = mark '\x7b' then some ('\x7d' :: due)
  else if t.kind = mark '(' then some (')' :: due)
  else if t.kind = mark '[' then some (']' :: due)
  else if t.kind.closes then
    match due with
    | [] => none
    | c :: rest => if t.kind = mark c ∧ (c = '\x7d' → rest ≠ []) then some rest else none
  else some due

/-- Do the tokens open what they close, with so many brackets around them? -/
def Level (least : Nat) (ts : List Token) : Prop :=
  ∀ due : List Char, least ≤ due.length → ts.foldlM Token.nest due = some due

/-- Are there tokens, and do they open what they close? -/
def Begun (least : Nat) (ts : List Token) : Prop :=
  ts ≠ [] ∧ Level least ts

/-- Do the tokens go up to a closing mark? -/
def LeadsTo (close : Char) (ts : List Token) : Prop :=
  ∃ inner last, ts = inner ++ [last] ∧ Level 1 inner ∧ last.kind = mark close

/-- Are the tokens between a pair of marks? -/
def Paired (opening close : Char) (ts : List Token) : Prop :=
  ∃ first rest, ts = first :: rest ∧ first.kind = mark opening ∧ LeadsTo close rest

/-- Do the tokens end with the one brace that closes all brackets? -/
def Whole (ts : List Token) : Prop :=
  ∃ inner last, ts = inner ++ [last] ∧ inner.foldlM Token.nest [] = some ['\x7d'] ∧
    last.kind = mark '\x7d'

variable {least : Nat} {ts us : List Token} {t : Token}

theorem level_nil (least : Nat) : Level least [] := fun _ _ => rfl

theorem level_append ⦃ts us : List Token⦄ (first : Level least ts) (second : Level least us) :
    Level least (ts ++ us) := by
  intro due deep
  rw [List.foldlM_append, first due deep]
  exact second due deep

theorem level_deeper {ts : List Token} (h : Level 0 ts) : Level 1 ts :=
  fun due _ => h due (Nat.zero_le _)

theorem level_single (least : Nat) (plain : t.kind.isPlain = true) : Level least [t] := by
  intro due _
  simp only [TokenKind.isPlain, Bool.and_eq_true, Bool.not_eq_true', TokenKind.opens,
    Bool.or_eq_false_iff, decide_eq_false_iff_not] at plain
  obtain ⟨⟨-, ⟨noBrace, noParen⟩, noBracket⟩, noClose⟩ := plain
  simp [Token.nest, noBrace, noParen, noBracket, noClose]

theorem begun_front ⦃ts us : List Token⦄ (first : Begun least ts) (second : Level least us) :
    Begun least (ts ++ us) :=
  ⟨fun none_ => first.1 (List.append_eq_nil_iff.mp none_).1, level_append first.2 second⟩

theorem begun_back ⦃ts us : List Token⦄ (first : Level least ts) (second : Begun least us) :
    Begun least (ts ++ us) :=
  ⟨fun none_ => second.1 (List.append_eq_nil_iff.mp none_).2, level_append first second.2⟩

theorem leadsTo_append {close : Char} ⦃ts us : List Token⦄ (first : Level 1 ts)
    (second : LeadsTo close us) : LeadsTo close (ts ++ us) := by
  obtain ⟨inner, last, rfl, level, closes⟩ := second
  exact ⟨ts ++ inner, last, (List.append_assoc ..).symm, level_append first level, closes⟩

theorem leadsTo_some {close : Char} : ¬LeadsTo close [] := by
  rintro ⟨inner, last, none_, -⟩
  simp at none_

theorem nest_opening {opening close : Char} (pair : Pair opening close) (opens : t.kind = mark opening)
    (due : List Char) : t.nest due = some (close :: due) := by
  obtain ⟨rfl, rfl⟩ | ⟨rfl, rfl⟩ | ⟨rfl, rfl⟩ := pair <;> simp [Token.nest, opens, mark]

theorem nest_closing {opening close : Char} (pair : Pair opening close) (closes : t.kind = mark close)
    {due : List Char} (stays : close = '\x7d' → due ≠ []) : t.nest (close :: due) = some due := by
  obtain ⟨rfl, rfl⟩ | ⟨rfl, rfl⟩ | ⟨rfl, rfl⟩ := pair
  · simp [Token.nest, TokenKind.closes, closes, mark]
  · simp [Token.nest, TokenKind.closes, closes, mark]
  · simpa [Token.nest, TokenKind.closes, closes, mark] using stays

theorem paired_nest {opening close : Char} (pair : Pair opening close) (h : Paired opening close ts)
    {due : List Char} (stays : close = '\x7d' → due ≠ []) : ts.foldlM Token.nest due = some due := by
  obtain ⟨first, _, rfl, opens, inner, last, rfl, level, closes⟩ := h
  rw [List.foldlM_cons, nest_opening pair opens]
  change (inner ++ [last]).foldlM Token.nest (close :: due) = some due
  rw [List.foldlM_append, level (close :: due) (Nat.le_add_left 1 due.length)]
  change [last].foldlM Token.nest (close :: due) = some due
  rw [List.foldlM_cons, nest_closing pair closes stays]
  rfl

theorem paired_level {opening close : Char} (pair : Pair opening close) ⦃ts : List Token⦄
    (h : Paired opening close ts) : Level 1 ts := by
  refine fun due deep => paired_nest pair h fun _ none_ => ?_
  rw [none_] at deep
  exact Nat.not_succ_le_zero 0 deep

theorem paired_begun {opening close : Char} (pair : Pair opening close) ⦃ts : List Token⦄
    (h : Paired opening close ts) : Begun 1 ts := by
  refine ⟨?_, paired_level pair h⟩
  obtain ⟨first, rest, rfl, -⟩ := h
  exact List.cons_ne_nil first rest

theorem parens_level ⦃ts : List Token⦄ (h : Paired '(' ')' ts) : Level 0 ts :=
  fun _ _ => paired_nest (.inl rfl) h nofun

theorem braces_whole ⦃ts : List Token⦄ (h : Paired '\x7b' '\x7d' ts) : Whole ts := by
  obtain ⟨first, _, rfl, opens, inner, last, rfl, level, closes⟩ := h
  refine ⟨first :: inner, last, rfl, ?_, closes⟩
  rw [List.foldlM_cons, nest_opening (.inr (.inr rfl)) opens]
  exact level ['\x7d'] (Nat.le_refl 1)

theorem whole_append ⦃ts us : List Token⦄ (first : Level 0 ts) (second : Whole us) :
    Whole (ts ++ us) := by
  obtain ⟨inner, last, rfl, nested, closes⟩ := second
  refine ⟨ts ++ inner, last, (List.append_assoc ..).symm, ?_, closes⟩
  rw [List.foldlM_append, first [] (Nat.zero_le _)]
  exact nested

theorem whole_ne_nil (h : Whole ts) : ts ≠ [] := by
  obtain ⟨inner, last, rfl, -⟩ := h
  simp

/-! ## Readers -/

variable {α β : Type} {r : Reader α} {again : Nat → Reader α} {f : α → Reader β} {s : Stream}
  {P Q R : List Token → Prop} {N : Word → List Word → Prop}

/-- Does what comes next begin with the word? -/
def Meets (w : Word) (rest : List Word) : Prop :=
  rest.head? = some w

/-- Nothing is asked of what comes next. -/
def Anyhow (_ : Word) (_ : List Word) : Prop := True

/-- Where no tokens are taken, does what comes next begin with the same word? -/
def Guarded (P : List Token → Prop) (N : Word → List Word → Prop) : Prop :=
  ∀ ⦃w rest⦄, P [] → N w rest → Meets w rest

theorem guarded_meets : Guarded P Meets := fun _ _ _ same => same

theorem guarded_begun : Guarded (Begun least) N := fun _ _ begun => absurd rfl begun.1

theorem guarded_whole : Guarded Whole N := fun _ _ whole => absurd rfl (whole_ne_nil whole)

/-- Does the reader take tokens with `P` from the stream, if it succeeds, and does the other one return
    the same from their words, with any bound that is not less than their number? -/
def RepeatsAt (s : Stream) (r : Reader α) (again : Nat → Reader α) (P : List Token → Prop)
    (N : Word → List Word → Prop) : Prop :=
  ∀ ⦃x s'⦄, r s = .ok (x, s') → ∃ ts, s.lexed = ts.map .token ++ s'.lexed ∧
    Lexed.Complete s'.lexed ∧ P ts ∧
      ∀ n, ts.length ≤ n → Reads (again n) (ts.map Token.word) x (N s'.current.word)

/-- Does the reader take tokens with `P` whenever it succeeds, and does the other one return the same
    from their words? -/
def Repeats (r : Reader α) (again : Nat → Reader α) (P : List Token → Prop)
    (N : Word → List Word → Prop) : Prop :=
  ∀ ⦃s⦄, Lexed.Complete s.lexed → RepeatsAt s r again P N

theorem repeats_mono {N' : Word → List Word → Prop} (h : Repeats r again P N)
    (weaker : ∀ ⦃ts⦄, P ts → Q ts) (next : ∀ w rest, N' w rest → N w rest) :
    Repeats r again Q N' := by
  intro _ complete x _ run
  obtain ⟨ts, lexed, complete', p, reads⟩ := h complete run
  exact ⟨ts, lexed, complete', weaker p, fun n long => reads_mono (reads n long) (next _)⟩

/-- What asks nothing of what comes next may have it begin with the same word. -/
theorem repeats_meets (h : Repeats r again P Anyhow) : Repeats r again P Meets :=
  repeats_mono h (fun _ p => p) fun _ _ _ => trivial

/-- The word behind the tokens that a first reader takes is the one that comes next, whether a second
    one takes it or not. -/
theorem meets_next {s s' : Stream} {rest : List Word} (lexed : s.lexed = us.map .token ++ s'.lexed)
    (guard : us = [] → Meets s'.current.word rest) :
    Meets s.current.word (us.map Token.word ++ rest) := by
  cases us with
  | nil =>
      have same : s.current = s'.current := Lexed.token.inj (List.cons.inj lexed).1
      rw [same]
      exact guard rfl
  | cons u us =>
      have same : s.current = u := Lexed.token.inj (List.cons.inj lexed).1
      rw [same]
      rfl

theorem repeats_bind {g : α → Nat → Reader β} (join : ∀ ⦃ts us⦄, P ts → Q us → R (ts ++ us))
    (guard : Guarded Q N) (first : Repeats r again P Meets)
    (second : ∀ x, Repeats (f x) (g x) Q N) :
    Repeats (r >>= f) (fun n => again n >>= fun x => g x n) R N := by
  intro s complete y s' run
  obtain ⟨x, s₁, run₁, run₂⟩ := bind_ok run
  obtain ⟨ts, lexed₁, complete₁, p, reads₁⟩ := first complete run₁
  obtain ⟨us, lexed₂, complete₂, q, reads₂⟩ := second x complete₁ run₂
  refine ⟨ts ++ us, ?_, complete₂, join p q, fun n long => ?_⟩
  · rw [lexed₁, lexed₂, List.map_append, List.append_assoc]
  · rw [List.length_append] at long
    rw [List.map_append]
    refine reads_bind (reads₁ n (by omega)) (reads₂ n (by omega)) fun rest next => ?_
    exact meets_next lexed₂ fun none_ => guard (none_ ▸ q) next

theorem repeats_pure (nothing : P []) (x : α) : Repeats (pure x) (fun _ => pure x) P N := by
  intro s complete y s' run
  cases run
  exact ⟨[], rfl, complete, nothing, fun _ _ => reads_pure x⟩

theorem repeats_map (h : Repeats r again P N) (f : α → β) :
    Repeats (r >>= fun x => pure (f x)) (fun n => again n >>= fun x => pure (f x)) P N := by
  intro s complete y s' run
  obtain ⟨x, s₁, run₁, made⟩ := bind_ok run
  cases made
  obtain ⟨ts, lexed, complete', p, reads⟩ := h complete run₁
  exact ⟨ts, lexed, complete', p, fun n long => reads_map (reads n long) f⟩

theorem repeatsAt_fail {problem : Problem} {again : Nat → Reader α} :
    RepeatsAt s (Reader.fail t problem) again P N := by
  intro x s' run
  cases run

theorem repeats_fail {problem : Problem} {again : Nat → Reader α} :
    Repeats (Reader.fail t problem) again P N :=
  fun _ _ => repeatsAt_fail

theorem tokens_unique {ls : List Lexed}
    (h : ts.map Lexed.token ++ ls = us.map Lexed.token ++ ls) : ts = us :=
  List.map_injective_iff.mpr (fun _ _ => Lexed.token.inj) (List.append_cancel_right h)

/-- What looks at a token does the same with another one of the same word. -/
theorem repeats_current {f : Token → Reader β} {g : Token → Nat → Reader β} (guard : Guarded P N)
    (h : ∀ s t, Lexed.Complete s.lexed → t.word = s.current.word →
      RepeatsAt s (f s.current) (g t) P N) :
    Repeats (Reader.current >>= f) (fun n => Reader.current >>= fun t => g t n) P N := by
  intro s complete y s' run
  rw [current_bind] at run
  obtain ⟨ts, lexed, complete', p, -⟩ := h s s.current complete rfl run
  refine ⟨ts, lexed, complete', p, fun n long => reads_look fun t rest first next => ?_⟩
  have meets : Meets s.current.word (ts.map Token.word ++ rest) :=
    meets_next lexed fun none_ => guard (none_ ▸ p) next
  have same : t.word = s.current.word := Option.some.inj (first.symm.trans meets)
  obtain ⟨ts', lexed', -, -, reads⟩ := h s t complete same run
  have equal : ts' = ts := tokens_unique (lexed'.symm.trans lexed)
  exact equal ▸ reads n (equal ▸ long)

/-- A token that is no end can be taken. -/
theorem repeatsAt_advance {f : Unit → Reader β} {g : Nat → Reader β} (complete : Lexed.Complete s.lexed)
    (inside : s.current.kind ≠ .eof) (join : ∀ us, Q us → P (s.current :: us))
    (h : Repeats (f ()) g Q N) :
    RepeatsAt s (Reader.advance >>= f) (fun n => Reader.advance >>= fun _ => g n) P N := by
  intro y s' run
  obtain ⟨_, s₁, advanced, run⟩ := bind_ok run
  obtain ⟨lexed₁, complete₁⟩ := advance_takes complete inside advanced
  obtain ⟨us, lexed, complete', q, reads⟩ := h complete₁ run
  refine ⟨s.current :: us, ?_, complete', join us q, fun n long => ?_⟩
  · rw [lexed₁, lexed]
    rfl
  · exact reads_advanced (f := fun _ => g n) (reads n (Nat.le_of_succ_le long))

theorem repeats_bound {f : Nat → Reader β} {g : Nat → Reader β} (h : ∀ n, Repeats (f n) g P N) :
    Repeats (Reader.bound >>= f) (fun _ => Reader.bound >>= g) P N := by
  intro s complete y s' run
  obtain ⟨ts, lexed, complete', p, reads⟩ := h _ complete run
  refine ⟨ts, lexed, complete', p, fun _ _ => reads_bound fun n long => reads n ?_⟩
  rw [List.length_map] at long
  exact Nat.le_of_lt long

/-! ## Single tokens -/

theorem word_kind {t u : Token} (same : t.word = u.word) : t.kind = u.kind :=
  (Prod.mk.inj same).1

theorem word_value {t u : Token} (same : t.word = u.word) : t.value = u.value :=
  (Prod.mk.inj same).2

/-- Whether a token is taken or not, the same is done again. -/
theorem repeats_taking {p : Token → Prop} [DecidablePred p] {yes no : Reader β}
    {yes' no' : Nat → Reader β} (guard : Guarded P N)
    (same : ∀ ⦃t u : Token⦄, t.word = u.word → (p t ↔ p u))
    (inside : ∀ t, p t → t.kind ≠ .eof) (join : ∀ t us, p t → Q us → P (t :: us))
    (take : Repeats yes yes' Q N) (pass : Repeats no no' P N) :
    Repeats (Reader.current >>= fun t => if p t then Reader.advance >>= fun _ => yes else no)
      (fun n => Reader.current >>= fun t => if p t then Reader.advance >>= fun _ => yes' n else no' n)
      P N := by
  refine repeats_current guard fun s t complete word => ?_
  have agree := same word
  by_cases here : p s.current
  · simp only [here, agree.mpr here, if_true]
    exact repeatsAt_advance complete (inside _ here) (fun us => join _ us here) take
  · have other : ¬p t := fun there => here (agree.mp there)
    simp only [here, other, if_false]
    exact pass complete

theorem repeats_expect {kind : TokenKind} (inside : kind ≠ .eof) {f : Token → Reader β}
    {g : Token → Nat → Reader β} (join : ∀ t us, t.kind = kind → Q us → R (t :: us))
    (h : ∀ t u : Token, u.value = t.value → Repeats (f t) (g u) Q N) :
    Repeats (Reader.expect kind >>= f) (fun n => Reader.expect kind >>= fun t => g t n) R N := by
  intro s complete y s' run
  obtain ⟨t, s₁, expected, run⟩ := bind_ok run
  rw [Reader.expect, current_bind] at expected
  split at expected
  next here =>
    obtain ⟨_, s₂, advanced, given⟩ := bind_ok expected
    cases given
    obtain ⟨lexed₁, complete₁⟩ := advance_takes complete (here ▸ inside) advanced
    obtain ⟨us, lexed, complete', q, -⟩ := h s.current s.current rfl complete₁ run
    refine ⟨s.current :: us, by rw [lexed₁, lexed]; rfl, complete', join _ us here q, fun n long => ?_⟩
    rw [List.map_cons, Token.word, here]
    refine reads_expect fun u value => ?_
    obtain ⟨us', lexed', -, -, reads⟩ := h s.current u value complete₁ run
    have equal : us' = us := tokens_unique (lexed'.symm.trans lexed)
    exact equal ▸ reads n (equal ▸ Nat.le_of_succ_le long)
  next => cases expected

theorem level_cons {t : Token} (plain : t.kind.isPlain = true) (h : Level least us) :
    Level least (t :: us) :=
  level_append (level_single least plain) h

theorem begun_cons {t : Token} (plain : t.kind.isPlain = true) (h : Level least us) :
    Begun least (t :: us) :=
  ⟨List.cons_ne_nil t us, level_cons plain h⟩

theorem repeats_isAt (kind : TokenKind) :
    Repeats (Reader.isAt kind) (fun _ => Reader.isAt kind) (Level least) Meets := by
  refine repeats_current guarded_meets fun s t complete same => ?_
  rw [word_kind same]
  exact repeats_pure (level_nil least) _ complete

theorem repeats_takes {kind : TokenKind} (plain : kind.isPlain = true) :
    Repeats (Reader.takes kind) (fun _ => Reader.takes kind) (Level least) Meets := by
  refine repeats_taking (p := fun t => t.kind = kind) guarded_meets ?_ ?_ ?_
    (repeats_pure (level_nil least) true) (repeats_pure (level_nil least) false)
  · exact fun t u same => by rw [word_kind same]
  · exact fun t here => here ▸ plain_inside plain
  · exact fun t us here => level_cons (here ▸ plain)

theorem isWord_same {word : String} {t u : Token} (same : t.word = u.word) :
    Reader.isWord word t = true ↔ Reader.isWord word u = true := by
  rw [isWord_word, isWord_word, same]

theorem repeats_takesWord (word : String) :
    Repeats (Reader.takesWord word) (fun _ => Reader.takesWord word) (Level least) Meets := by
  refine repeats_taking (p := fun t => Reader.isWord word t = true) guarded_meets ?_ ?_ ?_
    (repeats_pure (level_nil least) true) (repeats_pure (level_nil least) false)
  · exact fun t u => isWord_same
  · exact fun t here => plain_inside (isWord_plain here)
  · exact fun t us here => level_cons (isWord_plain here)

theorem name_inside : TokenKind.name ≠ .eof := nofun

theorem repeats_name : Repeats Reader.name (fun _ => Reader.name) (Begun least) Meets := by
  refine repeats_expect name_inside (fun t us name => begun_cons (name ▸ rfl)) fun t u value => ?_
  rw [value]
  exact repeats_pure (level_nil least) t.value

theorem repeats_mark {c : Char} {f : Reader β} {g : Nat → Reader β}
    (join : ∀ t us, t.kind = mark c → Q us → R (t :: us)) (h : Repeats f g Q N) :
    Repeats (Reader.expect (mark c) >>= fun _ => f) (fun n => Reader.expect (mark c) >>= fun _ => g n)
      R N :=
  repeats_expect (mark_inside c) join fun _ _ _ => h

/-- A mark that is no bracket. -/
theorem repeats_plainMark {c : Char} {f : Reader β} {g : Nat → Reader β}
    (plain : (mark c).isPlain = true) (h : Repeats f g (Level least) N) :
    Repeats (Reader.expect (mark c) >>= fun _ => f) (fun n => Reader.expect (mark c) >>= fun _ => g n)
      (Begun least) N :=
  repeats_mark (fun _ _ kind => begun_cons (kind ▸ plain)) h

theorem begun_level ⦃ts : List Token⦄ (h : Begun least ts) : Level least ts := h.2

/-- Readers one after the other that open what they close. -/
theorem repeats_level {g : α → Nat → Reader β} (first : Repeats r again (Level least) Meets)
    (second : ∀ x, Repeats (f x) (g x) (Level least) Meets) :
    Repeats (r >>= f) (fun n => again n >>= fun x => g x n) (Level least) Meets :=
  repeats_bind level_append guarded_meets first second

theorem repeats_weaken (h : Repeats r again (Begun least) N) : Repeats r again (Level least) N :=
  repeats_mono h begun_level fun _ _ next => next

theorem repeats_inside (h : Repeats r again (Level 0) N) : Repeats r again (Level 1) N :=
  repeats_mono h (fun _ => level_deeper) fun _ _ next => next

theorem repeats_variableName :
    Repeats Reader.variableName (fun _ => Reader.variableName) (Begun least) Meets :=
  repeats_plainMark rfl (repeats_weaken repeats_name)

theorem isString_same {t u : Token} (same : t.word = u.word) :
    Reader.isString t = true ↔ Reader.isString u = true := by
  rw [Reader.isString, Reader.isString, word_kind same]

theorem isString_plain {t : Token} (h : Reader.isString t = true) : t.kind.isPlain = true := by
  simp only [Reader.isString, Bool.or_eq_true, decide_eq_true_eq] at h
  obtain kind | kind := h <;> rw [kind] <;> rfl

theorem repeats_description :
    Repeats Reader.description (fun _ => Reader.description) (Level least) Meets := by
  refine repeats_current guarded_meets fun s t complete same => ?_
  by_cases here : Reader.isString s.current = true
  · have there := (isString_same same).mpr here
    simp only [here, there, if_true, word_kind same, word_value same]
    exact repeatsAt_advance complete (plain_inside (isString_plain here))
      (fun us => level_cons (isString_plain here)) (repeats_pure (level_nil least) _)
  · have other : ¬Reader.isString t = true := fun there => here ((isString_same same).mp there)
    simp only [here, other]
    exact repeats_pure (level_nil least) _ complete

theorem repeats_expectWord (word : String) :
    Repeats (Reader.expectWord word) (fun _ => Reader.expectWord word) (Begun least) Meets := by
  refine repeats_current guarded_meets fun s t complete same => ?_
  by_cases here : Reader.isWord word s.current = true
  · have taken : RepeatsAt s (Reader.advance >>= pure) (fun _ => Reader.advance >>= pure)
        (Begun least) Meets :=
      repeatsAt_advance complete (plain_inside (isWord_plain here))
        (fun us => begun_cons (isWord_plain here)) (repeats_pure (level_nil least) ())
    simpa only [here, (isWord_same same).mpr here, if_true, bind_pure] using taken
  · simp only [here, Bool.false_eq_true, if_false]
    exact repeatsAt_fail

theorem repeats_fragmentName :
    Repeats Reader.fragmentName (fun _ => Reader.fragmentName) (Begun least) Meets := by
  refine repeats_current guarded_meets fun s t complete same => ?_
  rw [word_value same]
  split
  · exact repeatsAt_fail
  · exact repeats_name complete

theorem repeats_operationKind :
    Repeats Reader.operationKind (fun _ => Reader.operationKind) (Begun least) Meets := by
  refine repeats_expect name_inside (fun t us name => begun_cons (name ▸ rfl)) fun t u value => ?_
  rw [value]
  cases Reader.operationKind? t.value with
  | some kind => exact repeats_pure (level_nil least) kind
  | none => exact repeats_fail

/-! ## Items -/

section

variable {item : Reader α} {opening close : Char}

theorem repeats_takes_bind {kind : TokenKind} {f : Bool → Reader β} {g : Bool → Nat → Reader β}
    (guard : Guarded P N) (inside : kind ≠ .eof) (join : ∀ t us, t.kind = kind → Q us → P (t :: us))
    (yes : Repeats (f true) (g true) Q N) (no : Repeats (f false) (g false) P N) :
    Repeats (Reader.takes kind >>= f) (fun n => Reader.takes kind >>= fun b => g b n) P N := by
  have run (f : Bool → Reader β) : (Reader.takes kind >>= f) = Reader.current >>= fun t =>
      if t.kind = kind then Reader.advance >>= fun _ => f true else f false := by
    funext s
    rw [takes_run, current_bind]
    split <;> rfl
  simp only [run]
  exact repeats_taking (p := fun t => t.kind = kind) guard
    (fun t u same => by rw [word_kind same]) (fun t here => here ▸ inside) join yes no

/-- Items up to a closing mark are taken again, with any bounds that are not less than their number. -/
theorem itemsUntil_again (items : Repeats item again (Begun 1) Meets) (bound : Nat) {s s' : Stream}
    {xs : List α} (complete : Lexed.Complete s.lexed)
    (run : Reader.itemsUntil close item bound s = .ok (xs, s')) :
    ∃ ts, s.lexed = ts.map .token ++ s'.lexed ∧ Lexed.Complete s'.lexed ∧ LeadsTo close ts ∧
      ∀ n k, ts.length ≤ n → ts.length ≤ k →
        Reads (Reader.itemsUntil close (again n) k) (ts.map Token.word) xs Anything := by
  induction bound generalizing s xs with
  | zero => cases run
  | succ bound ih =>
      obtain ⟨b, s₁, taken, next⟩ := bind_ok run
      obtain ⟨rfl, closes, lexed, complete₁⟩ | ⟨rfl, rfl⟩ := takes_ok (mark_inside close) complete taken
      · cases next
        refine ⟨[s.current], lexed, complete₁, ⟨[], s.current, rfl, level_nil 1, closes⟩,
          fun n k _ long => ?_⟩
        obtain ⟨k, rfl⟩ := Nat.exists_eq_succ_of_ne_zero (Nat.ne_of_gt long)
        rw [List.map_singleton, Token.word, closes]
        exact reads_takes (reads_pure [])
      · obtain ⟨x, s₂, read, next⟩ := bind_ok next
        obtain ⟨ys, s₃, further, made⟩ := bind_ok next
        cases made
        obtain ⟨ts, lexed, complete₁, begun, reads⟩ := items complete read
        obtain ⟨us, lexed', complete', leads, later⟩ := ih complete₁ further
        obtain ⟨t, ts, rfl⟩ := List.exists_cons_of_ne_nil begun.1
        have other : ¬t.kind = mark close := by
          have same : s₁.current = t := Lexed.token.inj (List.cons.inj lexed).1
          rw [Reader.takes, current_bind] at taken
          split at taken
          next =>
            obtain ⟨_, _, -, made⟩ := bind_ok taken
            cases made
          next differs => exact same ▸ differs
        refine ⟨t :: ts ++ us, ?_, complete', leadsTo_append begun.2 leads, fun n k deep long => ?_⟩
        · rw [lexed, lexed', List.map_append, List.append_assoc]
        · simp only [List.length_append, List.length_cons] at deep long
          obtain ⟨k, rfl⟩ := Nat.exists_eq_succ_of_ne_zero (by omega : k ≠ 0)
          rw [List.map_append]
          refine reads_skips (reads_bind (reads n (by simp; omega))
            (reads_map (later n k (by omega) (by omega)) (x :: ·)) fun rest next => ?_) fun rest _ => ?_
          · exact meets_next lexed' fun none_ => absurd leads (none_ ▸ leadsTo_some)
          · exact Avoids.cons fun c among => by
              rw [List.mem_singleton.mp among]
              exact other

theorem repeats_any (items : Repeats item again (Begun 1) Meets) :
    Repeats (Reader.any opening close item) (fun n => Reader.any opening close (again (n - 1)))
      (Paired opening close) Anyhow := by
  intro s complete xs s' run
  obtain ⟨first, s₁, expected, run⟩ := bind_ok run
  obtain ⟨bound, _, bounded, run⟩ := bind_ok run
  cases bounded
  obtain ⟨_, lexed, complete₁, t, rfl, opens⟩ := consumes_expect (mark_inside opening) complete expected
  obtain ⟨ts, lexed₁, complete', leads, reads⟩ := itemsUntil_again items _ complete₁ run
  refine ⟨t :: ts, ?_, complete', ⟨t, ts, rfl, opens, leads⟩, fun n long => ?_⟩
  · rw [lexed, lexed₁]
    rfl
  · rw [List.length_cons] at long
    rw [List.map_cons, Token.word, opens]
    refine reads_expect fun _ _ => reads_bound fun k enough => reads_anywhere ?_
    rw [List.length_map] at enough
    exact reads (n - 1) k (by omega) (by omega)

theorem repeats_many (items : Repeats item again (Begun 1) Meets) :
    Repeats (Reader.many opening close item) (fun n => Reader.many opening close (again n))
      (Paired opening close) Anyhow := by
  have further (x : α) : Repeats
      (Reader.bound >>= fun k => Reader.itemsUntil close item k >>= fun xs => pure (x :: xs))
      (fun n => Reader.bound >>= fun k => Reader.itemsUntil close (again n) k >>= fun xs =>
        pure (x :: xs)) (LeadsTo close) Anyhow := by
    intro s complete y s' run
    obtain ⟨bound, _, bounded, run⟩ := bind_ok run
    cases bounded
    obtain ⟨xs, _, read, made⟩ := bind_ok run
    cases made
    obtain ⟨ts, lexed, complete', leads, reads⟩ := itemsUntil_again items _ complete read
    refine ⟨ts, lexed, complete', leads, fun n long => reads_bound fun k enough => ?_⟩
    rw [List.length_map] at enough
    exact reads_anywhere (reads_map (reads n k long (Nat.le_of_lt enough)) (x :: ·))
  refine repeats_mark (fun t us kind leads => ⟨t, us, rfl, kind, leads⟩) ?_
  exact repeats_bind (fun ts us begun => leadsTo_append begun.2)
    (fun _ _ none_ => absurd none_ leadsTo_some) items further

theorem repeats_if {c : Prop} [Decidable c] {yes no : Reader α} {yes' no' : Nat → Reader α}
    (h : Repeats yes yes' P N) (h' : Repeats no no' P N) :
    Repeats (if c then yes else no) (fun n => if c then yes' n else no' n) P N := by
  split
  next => exact h
  next => exact h'

/-- Whoever asks for the kind of the next token gets the same answer again. -/
theorem repeats_asks {kind : TokenKind} {f : Bool → Reader β} {g : Bool → Nat → Reader β}
    (guard : Guarded P N) (h : ∀ b, Repeats (f b) (g b) P N) :
    Repeats (Reader.isAt kind >>= f) (fun n => Reader.isAt kind >>= fun b => g b n) P N := by
  have asked : Repeats (Reader.current >>= fun t => f (t.kind = kind))
      (fun n => Reader.current >>= fun t => g (t.kind = kind) n) P N := by
    refine repeats_current guard fun s t complete same => ?_
    rw [word_kind same]
    exact h _ complete
  exact asked

theorem repeats_optionalMany (items : Repeats item again (Begun 1) Meets) :
    Repeats (Reader.optionalMany '(' ')' item) (fun n => Reader.optionalMany '(' ')' (again n))
      (Level 0) Meets :=
  repeats_asks guarded_meets fun _ => repeats_if
    (repeats_mono (repeats_many items) parens_level fun _ _ _ => trivial)
    (repeats_pure (level_nil 0) [])

/-- Items while a mark is looked at stop in front of something else, since the bound allows more of
    them than there are tokens. -/
theorem itemsWhile_again (items : Repeats item (fun _ => item) (Begun least) Meets) (bound : Nat)
    {s s' : Stream} {xs : List α} (complete : Lexed.Complete s.lexed)
    (enough : s.lexed.length ≤ bound)
    (run : Reader.itemsWhile opening item bound s = .ok (xs, s')) :
    ∃ ts, s.lexed = ts.map .token ++ s'.lexed ∧ Lexed.Complete s'.lexed ∧ Level least ts ∧
      ∀ k, ts.length ≤ k → Reads (Reader.itemsWhile opening item k) (ts.map Token.word) xs
        (Meets s'.current.word) := by
  induction bound generalizing s xs with
  | zero => exact absurd enough (Nat.not_succ_le_zero _)
  | succ bound ih =>
      obtain ⟨b, _, asked, next⟩ := bind_ok run
      cases asked
      by_cases here : s.current.kind = mark opening
      · simp only [here, decide_true, if_true] at next
        obtain ⟨x, s₁, read, next⟩ := bind_ok next
        obtain ⟨ys, s₂, further, made⟩ := bind_ok next
        cases made
        obtain ⟨ts, lexed, complete₁, begun, reads⟩ := items complete read
        obtain ⟨t, ts, rfl⟩ := List.exists_cons_of_ne_nil begun.1
        have shorter : s₁.lexed.length ≤ bound := by
          rw [lexed, List.length_append, List.length_map, List.length_cons] at enough
          omega
        obtain ⟨us, lexed₁, complete', level, later⟩ := ih complete₁ shorter further
        refine ⟨t :: ts ++ us, ?_, complete', level_append begun.2 level, fun k long => ?_⟩
        · rw [lexed, lexed₁, List.map_append, List.append_assoc]
        · simp only [List.length_append, List.length_cons] at long
          obtain ⟨k, rfl⟩ := Nat.exists_eq_succ_of_ne_zero (by omega : k ≠ 0)
          have kind : t.kind = mark opening := by
            have same : s.current = t := Lexed.token.inj (List.cons.inj lexed).1
            exact same ▸ here
          have both : Reads
              (item >>= fun x => Reader.itemsWhile opening item k >>= fun xs => pure (x :: xs))
              ((t :: ts).map Token.word ++ us.map Token.word) (x :: ys) (Meets s'.current.word) :=
            reads_bind (reads _ (Nat.le_refl _)) (reads_map (later k (by omega)) (x :: ·))
              fun rest next => meets_next lexed₁ fun _ => next
          rw [← List.map_append, List.cons_append, List.map_cons, Token.word, kind] at both
          rw [List.cons_append, List.map_cons, Token.word, kind]
          exact reads_isAt both
      · simp only [here, decide_false] at next
        cases next
        refine ⟨[], rfl, complete, level_nil least, fun k _ => ?_⟩
        cases k with
        | zero => exact reads_pure []
        | succ k =>
            refine reads_notAt (reads_pure []) fun rest next w first => ?_
            cases first.symm.trans next
            exact here

theorem repeats_itemsWhile (items : Repeats item (fun _ => item) (Begun least) Meets) :
    Repeats (Reader.bound >>= Reader.itemsWhile opening item)
      (fun _ => Reader.bound >>= Reader.itemsWhile opening item) (Level least) Meets := by
  intro s complete xs s' run
  obtain ⟨bound, _, bounded, run⟩ := bind_ok run
  cases bounded
  obtain ⟨ts, lexed, complete', level, reads⟩ :=
    itemsWhile_again items _ complete (Nat.le_refl _) run
  refine ⟨ts, lexed, complete', level, fun _ _ => reads_bound fun k long => reads k ?_⟩
  rw [List.length_map] at long
  exact Nat.le_of_lt long

end

end GraphQL

end ApprovedOps
