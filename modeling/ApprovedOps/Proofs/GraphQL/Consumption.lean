import ApprovedOps.GraphQL.Grammar
import ApprovedOps.Proofs.Except
import ApprovedOps.Proofs.Text.Names

/-! # What readers take

A reader that succeeds takes some tokens from the front of the stream. For the readers of operations
these are bracketed: they open what they close, and the one brace that closes all brackets is the
last token of an operation. So where the first operation of a document ends can be seen from the
tokens alone.
-/

namespace ApprovedOps

namespace GraphQL

open Reader (mark)

/-! ## Token lists -/

namespace TokenKind

/-- Is a token of this kind an opening bracket? -/
def opens (kind : TokenKind) : Bool :=
  kind = Reader.mark '{' || kind = Reader.mark '(' || kind = Reader.mark '['

/-- Is a token of this kind a closing bracket? -/
def closes (kind : TokenKind) : Bool :=
  kind = Reader.mark '}' || kind = Reader.mark ')' || kind = Reader.mark ']'

/-- Is a token of this kind no bracket, and not the end? -/
def isPlain (kind : TokenKind) : Bool :=
  kind ≠ .eof && !kind.opens && !kind.closes

end TokenKind

/-- What comes after the brace that first closes all brackets. -/
def afterBlock : Nat → List Lexed → Option (List Lexed)
  | _, [] | _, .broken _ :: _ => none
  | depth, .token t :: rest =>
    if t.kind.opens then
      afterBlock (depth + 1) rest
    else if t.kind.closes then
      if depth = 1 ∧ t.kind = mark '}' then some rest else afterBlock (depth - 1) rest
    else
      afterBlock depth rest

/-- Do the tokens change nothing about where a block ends, at this depth and deeper? -/
def Neutral (least : Nat) (ts : List Token) : Prop :=
  ∀ depth rest, least ≤ depth →
    afterBlock depth (ts.map .token ++ rest) = afterBlock depth rest

/-- Is the block at its end after the tokens? -/
def Block (ts : List Token) : Prop :=
  ∀ rest, afterBlock 0 (ts.map .token ++ rest) = some rest

/-- Are the tokens bracketed by a pair of marks? -/
def Enclosed (opening close : Char) (ts : List Token) : Prop :=
  ∃ first inner last, ts = first :: (inner ++ [last]) ∧ first.kind = mark opening ∧
    Neutral 1 inner ∧ last.kind = mark close

/-- Do the tokens go up to a closing mark? -/
def UpTo (close : Char) (ts : List Token) : Prop :=
  ∃ inner last, ts = inner ++ [last] ∧ Neutral 1 inner ∧ last.kind = mark close

/-- The pairs of brackets. -/
def Pair (opening close : Char) : Prop :=
  (opening, close) = ('(', ')') ∨ (opening, close) = ('[', ']') ∨ (opening, close) = ('{', '}')

theorem neutral_nil (least : Nat) : Neutral least [] := fun _ _ _ => rfl

theorem neutral_append {least : Nat} ⦃ts us : List Token⦄ (first : Neutral least ts)
    (second : Neutral least us) : Neutral least (ts ++ us) := by
  intro depth rest deep
  rw [List.map_append, List.append_assoc, first depth _ deep, second depth rest deep]

theorem neutral_deeper {ts : List Token} (h : Neutral 0 ts) : Neutral 1 ts :=
  fun depth rest _ => h depth rest (Nat.zero_le depth)

theorem neutral_single {t : Token} (least : Nat) (plain : t.kind.isPlain = true) :
    Neutral least [t] := by
  intro depth rest _
  have noBracket : t.kind.opens = false ∧ t.kind.closes = false := by
    simp only [TokenKind.isPlain, Bool.and_eq_true, Bool.not_eq_true'] at plain
    exact ⟨plain.1.2, plain.2⟩
  simp [afterBlock, noBracket]

theorem block_append ⦃ts us : List Token⦄ (first : Neutral 0 ts) (second : Block us) :
    Block (ts ++ us) := by
  intro rest
  rw [List.map_append, List.append_assoc, first 0 _ (Nat.zero_le 0), second rest]

/-- Brackets take the depth up and down again. -/
theorem enclosed_depth {opening close : Char} {ts : List Token} (pair : Pair opening close)
    (h : Enclosed opening close ts) (depth : Nat) (rest : List Lexed) :
    afterBlock depth (ts.map .token ++ rest) =
      if depth = 0 ∧ close = '}' then some rest else afterBlock depth rest := by
  obtain ⟨first, inner, last, rfl, opens, neutral, closes⟩ := h
  have within := neutral (depth + 1) (.token last :: rest) (by omega)
  have first_opens : first.kind.opens = true := by
    obtain ⟨rfl, rfl⟩ | ⟨rfl, rfl⟩ | ⟨rfl, rfl⟩ := pair <;> simp [TokenKind.opens, opens]
  have last_closes : last.kind.opens = false ∧ last.kind.closes = true := by
    obtain ⟨rfl, rfl⟩ | ⟨rfl, rfl⟩ | ⟨rfl, rfl⟩ := pair <;>
      simp [TokenKind.opens, TokenKind.closes, closes, mark]
  have brace : last.kind = mark '}' ↔ close = '}' := by simp [closes, mark]
  simp only [List.map_cons, List.map_append, List.map_nil, List.cons_append, List.append_assoc,
    List.nil_append, afterBlock, first_opens, if_true, within, last_closes, Bool.false_eq_true,
    if_false, brace, Nat.add_sub_cancel, Nat.add_eq_right]

theorem enclosed_neutral {opening close : Char} (pair : Pair opening close) ⦃ts : List Token⦄
    (h : Enclosed opening close ts) : Neutral 1 ts := by
  intro depth rest deep
  rw [enclosed_depth pair h, if_neg (by omega)]

theorem parens_neutral {ts : List Token} (h : Enclosed '(' ')' ts) : Neutral 0 ts := by
  intro depth rest _
  rw [enclosed_depth (.inl rfl) h, if_neg (by simp)]

theorem braces_block {ts : List Token} (h : Enclosed '{' '}' ts) : Block ts := by
  intro rest
  rw [enclosed_depth (.inr (.inr rfl)) h, if_pos ⟨rfl, rfl⟩]

/-! ## Streams -/

/-- Is this the end of a text, or the tokens up to it, or up to a place where no token begins? -/
def Lexed.Complete : List Lexed → Prop
  | [] => False
  | .broken _ :: rest => rest = []
  | .token t :: rest => if t.kind = .eof then rest = [] else Complete rest

theorem dots_kind {r : Text} {kind : TokenKind} {v : Text} {n : Nat}
    (h : Lexed.dots r = .ok (kind, v, n)) : kind = .mark (Text.ofString "...") := by
  unfold Lexed.dots at h
  split at h
  · cases h
    rfl
  split at h
  · cases h
  · simp only at h
    split at h <;> cases h

/-- Only the end of a text is read as its end, and only a name as a name. -/
theorem tokenAt_kind {c : CodePoint} {r : Text} {kind : TokenKind} {v : Text} {n : Nat}
    (h : Lexed.tokenAt c r = .ok (kind, v, n)) :
    kind ≠ .eof ∧ (kind = .name → v.isName = true) := by
  unfold Lexed.tokenAt at h
  split at h
  · split at h
    · obtain ⟨_, -, h⟩ := except_bind_ok h
      cases h
      exact ⟨by simp, by simp⟩
    · obtain ⟨_, -, h⟩ := except_bind_ok h
      cases h
      exact ⟨by simp, by simp⟩
  split at h
  · cases h
    exact ⟨by simp, by simp⟩
  split at h
  · obtain ⟨_, -, h⟩ := except_bind_ok h
    cases h
    split <;> exact ⟨by simp, by simp⟩
  split at h
  next start =>
    cases h
    refine ⟨by simp, fun _ => ?_⟩
    rw [Text.isName, start, Bool.true_and]
    exact List.all_takeWhile
  split at h
  · cases found : Lexed.dots r with
    | error e => simp [found] at h
    | ok p =>
        simp only [found] at h
        cases h
        rw [dots_kind found]
        exact ⟨by simp, by simp⟩
  split at h
  · cases h
  split at h <;> cases h

theorem scanFrom_complete (k : Nat) (s : Text) : Lexed.Complete (Lexed.scanFrom k s) := by
  fun_induction Lexed.scanFrom k s with
  | case1 => rw [Lexed.Complete, if_pos rfl]
  | case2 k c r ignored ih => exact ih
  | case3 k r n ignored ih => exact ih
  | case4 k c r ignored plain kind v n found ih =>
      rw [Lexed.Complete, if_neg (tokenAt_kind found).1]
      exact ih
  | case5 => rfl

/-- Are the values of all tokens that are names names? -/
def Lexed.Named (ls : List Lexed) : Prop :=
  ∀ t, .token t ∈ ls → t.kind = .name → t.value.isName = true

theorem scanFrom_named (k : Nat) (s : Text) : Lexed.Named (Lexed.scanFrom k s) := by
  fun_induction Lexed.scanFrom k s with
  | case1 k =>
      intro t among name
      rw [List.mem_singleton] at among
      cases among
      cases name
  | case2 k c r ignored ih => exact ih
  | case3 k r n ignored ih => exact ih
  | case4 k c r ignored plain kind v n found ih =>
      intro t among name
      obtain same | later := List.mem_cons.mp among
      · cases same
        exact (tokenAt_kind found).2 name
      · exact ih t later name
  | case5 => nofun

/-- The token that is looked at and all after it. -/
def Stream.lexed (s : Stream) : List Lexed :=
  .token s.current :: s.rest

theorem start_lexed {t : Text} {s : Stream} (h : Reader.start t = .ok s) :
    s.lexed = Lexed.scan t := by
  have complete := scanFrom_complete 0 t
  rw [Reader.start] at h
  rw [Lexed.scan] at h ⊢
  split at h
  next empty => simp [empty, Lexed.Complete] at complete
  next first rest found =>
    cases h
    exact found.symm
  next => cases h

/-! ## Readers -/

variable {α β : Type}

/-- Does the reader take tokens that satisfy `P` whenever it succeeds? -/
def Consumes (r : Reader α) (P : List Token → Prop) : Prop :=
  ∀ ⦃s x s'⦄, Lexed.Complete s.lexed → r s = .ok (x, s') →
    ∃ ts, s.lexed = ts.map .token ++ s'.lexed ∧ Lexed.Complete s'.lexed ∧ P ts

theorem bind_ok {r : Reader α} {f : α → Reader β} {s s' : Stream} {y : β}
    (h : (r >>= f) s = .ok (y, s')) : ∃ x s₁, r s = .ok (x, s₁) ∧ f x s₁ = .ok (y, s') := by
  cases first : r s with
  | error e => simp [bind, StateT.bind, first, Except.bind] at h
  | ok p => exact ⟨p.1, p.2, rfl, by simpa [bind, StateT.bind, first, Except.bind] using h⟩

/-- One reader after the other takes what they take, one after the other. -/
theorem consumes_bind {P Q R : List Token → Prop} {r : Reader α} {f : α → Reader β}
    (join : ∀ ⦃ts us⦄, P ts → Q us → R (ts ++ us)) (first : Consumes r P)
    (second : ∀ x, Consumes (f x) Q) : Consumes (r >>= f) R := by
  intro s y s' complete h
  obtain ⟨x, s₁, ok₁, ok₂⟩ := bind_ok h
  obtain ⟨ts, lexed₁, complete₁, p⟩ := first complete ok₁
  obtain ⟨us, lexed₂, complete₂, q⟩ := second x complete₁ ok₂
  refine ⟨ts ++ us, ?_, complete₂, join p q⟩
  rw [lexed₁, lexed₂, List.map_append, List.append_assoc]

theorem consumes_pure {P : List Token → Prop} (nothing : P []) (x : α) :
    Consumes (pure x) P := by
  intro s y s' complete h
  cases h
  exact ⟨[], rfl, complete, nothing⟩

/-- What is made of what was read takes nothing more. -/
theorem consumes_map {P : List Token → Prop} {r : Reader α} (h : Consumes r P) (f : α → β) :
    Consumes (r >>= fun x => pure (f x)) P := by
  refine consumes_bind (Q := fun us => us = []) ?_ h fun x => consumes_pure (P := fun us => us = []) rfl _
  rintro ts us p rfl
  rwa [List.append_nil]

theorem consumes_fail {P : List Token → Prop} (t : Token) (problem : Problem) :
    Consumes (Reader.fail t problem : Reader α) P := by
  intro s y s' complete h
  cases h

/-- Taking a token that is no end takes just this token. -/
theorem advance_takes {s s' : Stream} {x : Unit} (complete : Lexed.Complete s.lexed)
    (inside : s.current.kind ≠ .eof) (h : Reader.advance s = .ok (x, s')) :
    s.lexed = .token s.current :: s'.lexed ∧ Lexed.Complete s'.lexed := by
  obtain ⟨t, rest⟩ := s
  rw [Stream.lexed, Lexed.Complete, if_neg inside] at complete
  match rest with
  | [] => cases complete
  | .token t' :: rest =>
      cases h
      exact ⟨rfl, complete⟩
  | .broken e :: rest => cases h

theorem current_bind (f : Token → Reader α) (s : Stream) :
    (Reader.current >>= f) s = f s.current s := rfl

/-- What takes a token if it is of a kind takes it or nothing. -/
theorem takes_ok {kind : TokenKind} {s s' : Stream} {b : Bool} (inside : kind ≠ .eof)
    (complete : Lexed.Complete s.lexed) (h : Reader.takes kind s = .ok (b, s')) :
    (b = true ∧ s.current.kind = kind ∧ s.lexed = .token s.current :: s'.lexed ∧
      Lexed.Complete s'.lexed) ∨ (b = false ∧ s' = s) := by
  rw [Reader.takes, current_bind] at h
  split at h
  next here =>
    obtain ⟨_, s₁, advanced, h⟩ := bind_ok h
    cases h
    exact .inl ⟨rfl, here, advance_takes complete (here ▸ inside) advanced⟩
  next =>
    cases h
    exact .inr ⟨rfl, rfl⟩

/-- The single tokens of a kind. -/
def Single (kind : TokenKind) (ts : List Token) : Prop :=
  ∃ t, ts = [t] ∧ t.kind = kind

theorem consumes_expect {kind : TokenKind} (inside : kind ≠ .eof) :
    Consumes (Reader.expect kind) (Single kind) := by
  intro s x s' complete h
  rw [Reader.expect, current_bind] at h
  split at h
  next here =>
    obtain ⟨_, s₁, advanced, h⟩ := bind_ok h
    cases h
    obtain ⟨lexed, complete'⟩ := advance_takes complete (here ▸ inside) advanced
    exact ⟨[s.current], lexed, complete', s.current, rfl, here⟩
  next => cases h

/-! ## Readers that open what they close -/

theorem neutral_of_single {kind : TokenKind} (plain : kind.isPlain = true) (least : Nat)
    {ts : List Token} (h : Single kind ts) : Neutral least ts := by
  obtain ⟨t, rfl, rfl⟩ := h
  exact neutral_single least plain

theorem plain_inside {kind : TokenKind} (plain : kind.isPlain = true) : kind ≠ .eof := by
  rintro rfl
  cases plain

theorem mark_inside (c : Char) : mark c ≠ .eof := nofun

variable {least : Nat}

theorem neutral_bind {r : Reader α} {f : α → Reader β} (first : Consumes r (Neutral least))
    (second : ∀ x, Consumes (f x) (Neutral least)) : Consumes (r >>= f) (Neutral least) :=
  consumes_bind neutral_append first second

theorem neutral_pure (x : α) : Consumes (pure x) (Neutral least) :=
  consumes_pure (neutral_nil least) x

theorem neutral_current : Consumes Reader.current (Neutral least) := by
  intro s x s' complete h
  cases h
  exact ⟨[], rfl, complete, neutral_nil least⟩

theorem neutral_bound : Consumes Reader.bound (Neutral least) := by
  intro s x s' complete h
  cases h
  exact ⟨[], rfl, complete, neutral_nil least⟩

theorem neutral_isAt (kind : TokenKind) : Consumes (Reader.isAt kind) (Neutral least) :=
  neutral_bind neutral_current fun _ => neutral_pure _

theorem neutral_expect {kind : TokenKind} (plain : kind.isPlain = true) :
    Consumes (Reader.expect kind) (Neutral least) := by
  intro s x s' complete h
  obtain ⟨ts, lexed, complete', single⟩ := consumes_expect (plain_inside plain) complete h
  exact ⟨ts, lexed, complete', neutral_of_single plain least single⟩

/-- A token that is no bracket may be taken. -/
theorem neutral_advance {s s' : Stream} {x : Unit} (complete : Lexed.Complete s.lexed)
    (plain : s.current.kind.isPlain = true) (h : Reader.advance s = .ok (x, s')) :
    ∃ ts, s.lexed = ts.map .token ++ s'.lexed ∧ Lexed.Complete s'.lexed ∧ Neutral least ts := by
  obtain ⟨lexed, complete'⟩ := advance_takes complete (plain_inside plain) h
  exact ⟨[s.current], lexed, complete', neutral_single least plain⟩

theorem neutral_takes {kind : TokenKind} (plain : kind.isPlain = true) :
    Consumes (Reader.takes kind) (Neutral least) := by
  intro s b s' complete h
  obtain ⟨-, rfl, lexed, complete'⟩ | ⟨-, rfl⟩ := takes_ok (plain_inside plain) complete h
  · exact ⟨[s.current], lexed, complete', neutral_single least plain⟩
  · exact ⟨[], rfl, complete, neutral_nil least⟩

theorem isWord_plain {word : String} {t : Token} (h : Reader.isWord word t = true) :
    t.kind.isPlain = true := by
  have name : t.kind = .name := by
    simp only [Reader.isWord, Bool.and_eq_true, decide_eq_true_eq] at h
    exact h.1
  rw [name]
  rfl

theorem neutral_takesWord (word : String) : Consumes (Reader.takesWord word) (Neutral least) := by
  intro s b s' complete h
  rw [Reader.takesWord, current_bind] at h
  split at h
  next here =>
    obtain ⟨_, s₁, advanced, h⟩ := bind_ok h
    cases h
    exact neutral_advance complete (isWord_plain here) advanced
  next =>
    cases h
    exact ⟨[], rfl, complete, neutral_nil least⟩

theorem neutral_description : Consumes Reader.description (Neutral least) := by
  intro s b s' complete h
  rw [Reader.description, current_bind] at h
  split at h
  next here =>
    obtain ⟨_, s₁, advanced, h⟩ := bind_ok h
    cases h
    refine neutral_advance complete ?_ advanced
    obtain string | block : s.current.kind = .string ∨ s.current.kind = .blockString := by
      simpa [Reader.isString] using here
    · rw [string]
      rfl
    · rw [block]
      rfl
  next =>
    cases h
    exact ⟨[], rfl, complete, neutral_nil least⟩

theorem neutral_name : Consumes Reader.name (Neutral least) :=
  neutral_bind (neutral_expect rfl) fun _ => neutral_pure _

theorem upTo_append {close : Char} ⦃ts us : List Token⦄ (first : Neutral 1 ts)
    (second : UpTo close us) : UpTo close (ts ++ us) := by
  obtain ⟨inner, last, rfl, neutral, closes⟩ := second
  exact ⟨ts ++ inner, last, (List.append_assoc ..).symm, neutral_append first neutral, closes⟩

theorem enclosed_of_upTo {opening close : Char} ⦃ts us : List Token⦄
    (first : Single (mark opening) ts) (second : UpTo close us) :
    Enclosed opening close (ts ++ us) := by
  obtain ⟨t, rfl, opens⟩ := first
  obtain ⟨inner, last, rfl, neutral, closes⟩ := second
  exact ⟨t, inner, last, rfl, opens, neutral, closes⟩

/-- Items up to a closing mark are taken with the mark. -/
theorem consumes_itemsUntil {close : Char} {item : Reader α} (items : Consumes item (Neutral 1))
    (bound : Nat) : Consumes (Reader.itemsUntil close item bound) (UpTo close) := by
  induction bound with
  | zero =>
      intro s x s' complete h
      cases h
  | succ bound ih =>
      intro s x s' complete h
      obtain ⟨b, s₁, taken, next⟩ := bind_ok h
      obtain ⟨rfl, closes, lexed, complete₁⟩ | ⟨rfl, rfl⟩ := takes_ok (mark_inside close) complete taken
      · cases next
        exact ⟨[s.current], lexed, complete₁, [], s.current, rfl, neutral_nil 1, closes⟩
      · have further : Consumes (item >>= fun x => Reader.itemsUntil close item bound >>= fun xs =>
            pure (x :: xs)) (UpTo close) :=
          consumes_bind upTo_append items fun x => consumes_map ih _
        exact further complete next

theorem consumes_any {opening close : Char} {item : Reader α} (items : Consumes item (Neutral 1)) :
    Consumes (Reader.any opening close item) (Enclosed opening close) :=
  consumes_bind enclosed_of_upTo (consumes_expect (mark_inside opening)) fun _ =>
    consumes_bind upTo_append neutral_bound fun _ => consumes_itemsUntil items _

theorem consumes_many {opening close : Char} {item : Reader α} (items : Consumes item (Neutral 1)) :
    Consumes (Reader.many opening close item) (Enclosed opening close) :=
  consumes_bind enclosed_of_upTo (consumes_expect (mark_inside opening)) fun _ =>
    consumes_bind upTo_append items fun _ =>
      consumes_bind upTo_append neutral_bound fun _ => consumes_map (consumes_itemsUntil items _) _

theorem neutral_optionalMany {item : Reader α} (items : Consumes item (Neutral 1)) :
    Consumes (Reader.optionalMany '(' ')' item) (Neutral 0) := by
  refine neutral_bind (neutral_isAt _) fun b => ?_
  split
  · intro s x s' complete h
    obtain ⟨ts, lexed, complete', enclosed⟩ := consumes_many items complete h
    exact ⟨ts, lexed, complete', parens_neutral enclosed⟩
  · exact neutral_pure _

theorem neutral_itemsWhile {opening : Char} {item : Reader α} (items : Consumes item (Neutral least))
    (bound : Nat) : Consumes (Reader.itemsWhile opening item bound) (Neutral least) := by
  induction bound with
  | zero => exact neutral_pure _
  | succ bound ih =>
      refine neutral_bind (neutral_isAt _) fun b => ?_
      split
      · exact neutral_bind items fun _ => neutral_bind ih fun _ => neutral_pure _
      · exact neutral_pure _

theorem neutral_entry {value : Reader Value} (h : Consumes value (Neutral 1)) :
    Consumes (Reader.entry value) (Neutral 1) :=
  neutral_bind neutral_name fun _ => neutral_bind (neutral_expect rfl) fun _ =>
    neutral_bind h fun _ => neutral_pure _

theorem consumes_mono {P Q : List Token → Prop} {r : Reader α} (h : Consumes r P)
    (weaker : ∀ ⦃ts⦄, P ts → Q ts) : Consumes r Q := by
  intro s x s' complete ok
  obtain ⟨ts, lexed, complete', p⟩ := h complete ok
  exact ⟨ts, lexed, complete', weaker p⟩

theorem neutral_variableName : Consumes Reader.variableName (Neutral least) :=
  neutral_bind (neutral_expect rfl) fun _ => neutral_name

theorem neutral_constantVariable : Consumes Reader.constantVariable (Neutral least) := by
  refine neutral_bind (neutral_expect rfl) fun _ => neutral_bind neutral_current fun t => ?_
  split
  · exact consumes_fail _ _
  · exact consumes_fail _ _

/-- Only inside brackets may values be read: an object ends with a brace. -/
theorem neutral_value (isConst : Bool) (bound : Nat) :
    Consumes (Reader.value isConst bound) (Neutral 1) := by
  induction bound with
  | zero =>
      intro s x s' complete h
      cases h
  | succ bound ih =>
      intro s x s' complete h
      rw [Reader.value, current_bind] at h
      have single {y : Value} (plain : s.current.kind.isPlain = true)
          (h : (Reader.advance >>= fun _ => pure y) s = .ok (x, s')) :
          ∃ ts, s.lexed = ts.map .token ++ s'.lexed ∧ Lexed.Complete s'.lexed ∧ Neutral 1 ts := by
        obtain ⟨_, s₁, advanced, h⟩ := bind_ok h
        cases h
        exact neutral_advance complete plain advanced
      cases kind : s.current.kind with
      | int | float | string | blockString | name =>
          simp only [kind] at h
          exact single (by rw [kind]; rfl) h
      | eof =>
          simp only [kind] at h
          cases h
      | mark text =>
          simp only [kind] at h
          split at h
          · exact consumes_map (consumes_mono (consumes_any ih) (enclosed_neutral (.inr (.inl rfl))))
              _ complete h
          split at h
          · exact consumes_map (consumes_mono (consumes_any (neutral_entry ih))
              (enclosed_neutral (.inr (.inr rfl)))) _ complete h
          split at h
          · cases isConst with
            | true => exact neutral_constantVariable complete h
            | false => exact consumes_map neutral_variableName _ complete h
          · cases h

theorem neutral_arguments (isConst : Bool) :
    Consumes (Reader.arguments isConst) (Neutral 0) :=
  neutral_bind neutral_bound fun _ =>
    neutral_optionalMany (neutral_entry (neutral_value isConst _))

theorem neutral_directives (isConst : Bool) : Consumes (Reader.directives isConst) (Neutral 0) :=
  neutral_bind neutral_bound fun _ =>
    neutral_itemsWhile
      (neutral_bind (neutral_expect rfl) fun _ => neutral_bind neutral_name fun _ =>
        neutral_bind (neutral_arguments isConst) fun _ => neutral_pure _) _

theorem neutral_inside {r : Reader α} (h : Consumes r (Neutral 0)) : Consumes r (Neutral 1) :=
  consumes_mono h fun _ => neutral_deeper

/-- A type between brackets opens and closes them itself. -/
theorem neutral_typeRef (bound : Nat) : Consumes (Reader.typeRef bound) (Neutral 1) := by
  induction bound with
  | zero =>
      intro s x s' complete h
      cases h
  | succ bound ih =>
      intro s x s' complete h
      obtain ⟨b, s₁, taken, next⟩ := bind_ok h
      have after (inner : TypeRef) : Consumes (Reader.takes (mark '!') >>= fun b =>
          if b = true then pure (TypeRef.nonNull inner) else pure inner) (Neutral 1) := by
        refine neutral_bind (neutral_takes rfl) fun b => ?_
        split <;> exact neutral_pure _
      obtain ⟨rfl, opens, lexed, complete₁⟩ | ⟨rfl, rfl⟩ := takes_ok (mark_inside '[') complete taken
      · obtain ⟨inner, s₂, read, next⟩ := bind_ok next
        obtain ⟨_, s₃, closed, next⟩ := bind_ok next
        obtain ⟨ts, lexed₂, complete₂, neutral⟩ := ih complete₁ read
        obtain ⟨_, lexed₃, complete₃, last, rfl, closes⟩ :=
          consumes_expect (mark_inside ']') complete₂ closed
        obtain ⟨us, lexed', complete', neutral'⟩ := after _ complete₃ next
        have enclosed : Enclosed '[' ']' (s.current :: (ts ++ [last])) :=
          ⟨s.current, ts, last, rfl, opens, neutral, closes⟩
        refine ⟨s.current :: (ts ++ [last]) ++ us, ?_, complete',
          neutral_append (enclosed_neutral (.inr (.inl rfl)) enclosed) neutral'⟩
        simp [lexed, lexed₂, lexed₃, lexed']
      · exact neutral_bind neutral_name (fun word => after (.named word)) complete next

theorem neutral_defaultValue : Consumes Reader.defaultValue (Neutral 1) := by
  refine neutral_bind (neutral_takes rfl) fun b => ?_
  split
  · exact neutral_bind neutral_bound fun _ => neutral_bind (neutral_value true _) fun _ =>
      neutral_pure _
  · exact neutral_pure _

theorem neutral_variableDefinition : Consumes Reader.variableDefinition (Neutral 1) :=
  neutral_bind neutral_description fun _ => neutral_bind neutral_variableName fun _ =>
    neutral_bind (neutral_expect rfl) fun _ =>
      neutral_bind (neutral_bind neutral_bound fun _ => neutral_typeRef _) fun _ =>
        neutral_bind neutral_defaultValue fun _ =>
          neutral_bind (neutral_inside (neutral_directives true)) fun _ => neutral_pure _

/-! ## Operations -/

theorem neutral_fragmentName : Consumes Reader.fragmentName (Neutral least) := by
  refine neutral_bind neutral_current fun t => ?_
  split
  · exact consumes_fail _ _
  · exact neutral_name

section

variable {selections : Reader (List Selection)} (inner : Consumes selections (Neutral 1))

include inner

theorem neutral_spread : Consumes (Reader.spread selections) (Neutral 1) := by
  have directives := neutral_inside (neutral_directives false)
  refine neutral_bind (neutral_expect (by decide)) fun _ =>
    neutral_bind (neutral_takesWord "on") fun b => ?_
  split
  · exact neutral_bind neutral_name fun _ => neutral_bind directives fun _ =>
      neutral_bind inner fun _ => neutral_pure _
  · refine neutral_bind (neutral_isAt _) fun b => ?_
    split
    · exact neutral_bind neutral_fragmentName fun _ => neutral_bind directives fun _ => neutral_pure _
    · exact neutral_bind directives fun _ => neutral_bind inner fun _ => neutral_pure _

theorem neutral_field : Consumes (Reader.field selections) (Neutral 1) := by
  have rest (label : Option Text) (word : Text) : Consumes (do
      let args ← Reader.arguments false
      let ds ← Reader.directives false
      if ← Reader.isAt (mark '{') then
        return Selection.field label word args ds (some (← selections))
      else
        return Selection.field label word args ds none) (Neutral 1) := by
    refine neutral_bind (neutral_inside (neutral_arguments false)) fun _ =>
      neutral_bind (neutral_inside (neutral_directives false)) fun _ =>
        neutral_bind (neutral_isAt _) fun b => ?_
    split
    · exact neutral_bind inner fun _ => neutral_pure _
    · exact neutral_pure _
  refine neutral_bind neutral_name fun first => neutral_bind (neutral_takes rfl) fun b => ?_
  cases b with
  | true => exact neutral_bind neutral_name fun word => rest (some first) word
  | false => exact rest none first

end

/-- Selections are taken with the braces around them. -/
theorem consumes_selectionSet (bound : Nat) :
    Consumes (Reader.selectionSet bound) (Enclosed '{' '}') := by
  induction bound with
  | zero =>
      intro s x s' complete h
      cases h
  | succ bound ih =>
      have inner := consumes_mono ih (enclosed_neutral (.inr (.inr rfl)))
      refine consumes_any (neutral_bind (neutral_isAt _) fun b => ?_)
      split
      · exact neutral_spread inner
      · exact neutral_field inner

theorem block_selections : Consumes Reader.selections Block :=
  consumes_bind block_append neutral_bound fun _ =>
    consumes_mono (consumes_selectionSet _) fun _ => braces_block

theorem neutral_operationKind : Consumes Reader.operationKind (Neutral least) := by
  refine neutral_bind (neutral_expect rfl) fun t => ?_
  split
  · exact neutral_pure _
  · exact consumes_fail _ _

/-- An operation ends with the brace that first closes all brackets. -/
theorem block_operation : Consumes Reader.operation Block := by
  refine consumes_bind block_append (neutral_isAt _) fun b => ?_
  split
  · exact consumes_map block_selections _
  · refine consumes_bind block_append neutral_description fun description =>
      consumes_bind block_append neutral_operationKind fun kind => ?_
    have rest (word : Option Text) : Consumes (do
        let variableDefinitions ← Reader.optionalMany '(' ')' Reader.variableDefinition
        let ds ← Reader.directives false
        return ({ description, kind, name := word, variableDefinitions, directives := ds,
                  selections := ← Reader.selections } : Operation)) Block :=
      consumes_bind block_append (neutral_optionalMany neutral_variableDefinition) fun _ =>
        consumes_bind block_append (neutral_directives false) fun _ =>
          consumes_map block_selections _
    refine consumes_bind block_append (neutral_isAt _) fun b => ?_
    split
    · exact consumes_bind block_append neutral_name fun word => rest (some word)
    · exact rest none

/-- The name of an operation is that of a token. -/
theorem operation_name {s s' : Stream} {o : Operation} {n : Text} (complete : Lexed.Complete s.lexed)
    (named : Lexed.Named s.lexed) (h : Reader.operation s = .ok (o, s')) (name : o.name = some n) :
    n.isName = true := by
  obtain ⟨b, s₁, looked, h⟩ := bind_ok h
  cases looked
  split at h
  · obtain ⟨_, _, -, made⟩ := bind_ok h
    cases made
    cases name
  · obtain ⟨description, s₁, described, h⟩ := bind_ok h
    obtain ⟨kind, s₂, introduced, h⟩ := bind_ok h
    obtain ⟨ts₁, lexed₁, complete₁, -⟩ := @neutral_description 0 _ _ _ complete described
    obtain ⟨ts₂, lexed₂, -, -⟩ := @neutral_operationKind 0 _ _ _ complete₁ introduced
    have inside : Lexed.token s₂.current ∈ s.lexed := by
      rw [lexed₁, lexed₂]
      exact List.mem_append_right _ (List.mem_append_right _ List.mem_cons_self)
    have made {word : Option Text} {s₃ : Stream} (h : (do
        let variableDefinitions ← Reader.optionalMany '(' ')' Reader.variableDefinition
        let ds ← Reader.directives false
        return ({ description, kind, name := word, variableDefinitions, directives := ds,
                  selections := ← Reader.selections } : Operation)) s₃ = .ok (o, s')) :
        word = some n := by
      obtain ⟨_, _, -, h⟩ := bind_ok h
      obtain ⟨_, _, -, h⟩ := bind_ok h
      obtain ⟨_, _, -, made⟩ := bind_ok h
      cases made
      exact name
    obtain ⟨b, _, looked, h⟩ := bind_ok h
    cases looked
    split at h
    next here =>
      obtain ⟨word, s₃, read, h⟩ := bind_ok h
      obtain ⟨t, _, expected, value⟩ := bind_ok read
      rw [Reader.expect, current_bind, if_pos (of_decide_eq_true here)] at expected
      obtain ⟨_, _, -, given⟩ := bind_ok expected
      cases given
      cases value
      cases made h
      exact named _ inside (of_decide_eq_true here)
    next => cases made h

/-! ## Documents -/

/-- Does an operation begin with this token? -/
def beginsOperation (t : Token) : Bool :=
  t.kind = mark '{' || t.kind = .name && (Reader.operationKind? t.value).isSome

theorem isAt_run (kind : TokenKind) (s : Stream) :
    Reader.isAt kind s = .ok (decide (s.current.kind = kind), s) := rfl

theorem operationKind?_word {word : Text} (h : (Reader.operationKind? word).isSome = true) :
    word = Text.ofString "query" ∨ word = Text.ofString "mutation" ∨
      word = Text.ofString "subscription" := by
  unfold Reader.operationKind? at h
  split at h
  · exact .inl ‹_›
  split at h
  · exact .inr (.inl ‹_›)
  split at h
  · exact .inr (.inr ‹_›)
  · cases h

/-- What begins as an operation is read as one. -/
theorem definition_operation {s s' : Stream} {d : Definition}
    (begins : beginsOperation s.current = true) (h : Reader.definition s = .ok (d, s')) :
    ∃ o, d = .operation o ∧ Reader.operation s = .ok (o, s') := by
  have wrapped (h : (Reader.operation >>= fun o => pure (.operation o)) s = .ok (d, s')) :
      ∃ o, d = .operation o ∧ Reader.operation s = .ok (o, s') := by
    obtain ⟨o, s₁, read, made⟩ := bind_ok h
    cases made
    exact ⟨o, rfl, read⟩
  rw [Reader.definition, current_bind] at h
  by_cases brace : s.current.kind = mark '{'
  · rw [if_pos brace] at h
    exact wrapped h
  · obtain ⟨name, keyword⟩ : s.current.kind = .name ∧
        (Reader.operationKind? s.current.value).isSome = true := by
      simpa [beginsOperation, brace] using begins
    have noString : ¬Reader.isString s.current = true := by simp [Reader.isString, name]
    have word (w : String) (other : ∀ v : Text, v = Text.ofString w →
        (Reader.operationKind? v).isSome = false) : ¬Reader.isWord w s.current = true := by
      simp only [Reader.isWord, name, decide_true, Bool.true_and, decide_eq_true_eq]
      intro same
      simp [other _ same] at keyword
    have noType : Reader.typeWord? s.current.value = none := by
      obtain same | same | same := operationKind?_word keyword <;> rw [same] <;> rfl
    rw [if_neg brace, if_neg noString, Reader.described, if_neg (not_not_intro name),
      if_neg (word "schema" (by rintro v rfl; rfl)),
      if_neg (word "directive" (by rintro v rfl; rfl)), noType] at h
    simp only [keyword, if_true] at h
    exact wrapped h

/-- A document whose first token begins an operation has this operation first, and it has nothing
    else if the text ends with the brace that first closes all brackets. -/
theorem document_operation {s s' : Stream} {d : Document} (complete : Lexed.Complete s.lexed)
    (begins : beginsOperation s.current = true) (h : Reader.document s = .ok (d, s')) :
    ∃ o rest s₁, d = .operation o :: rest ∧ Reader.operation s = .ok (o, s₁) ∧
      (rest = [] ↔ ∃ last, last.kind = .eof ∧ afterBlock 0 s.lexed = some [.token last]) := by
  obtain ⟨first, s₁, read, next⟩ := bind_ok h
  obtain ⟨bound, _, bounded, next⟩ := bind_ok next
  obtain ⟨rest, _, further, made⟩ := bind_ok next
  cases bounded
  cases made
  obtain ⟨o, rfl, operation⟩ := definition_operation begins read
  obtain ⟨ts, lexed, complete₁, block⟩ := block_operation complete operation
  refine ⟨o, rest, s₁, rfl, operation, ?_⟩
  rw [lexed, block]
  obtain ⟨b, _, looked, next⟩ := bind_ok further
  rw [isAt_run] at looked
  cases looked
  by_cases ended : s₁.current.kind = .eof
  · rw [decide_eq_true ended] at next
    rw [Stream.lexed, Lexed.Complete, if_pos ended] at complete₁
    have last : some s₁.lexed = some [.token s₁.current] := by rw [Stream.lexed, complete₁]
    cases next
    exact ⟨fun _ => ⟨_, ended, last⟩, fun _ => rfl⟩
  · rw [decide_eq_false ended] at next
    obtain ⟨_, _, -, next⟩ := bind_ok next
    obtain ⟨_, _, -, made⟩ := bind_ok next
    cases made
    constructor
    · nofun
    · rintro ⟨last, isEnd, same⟩
      cases (List.cons.inj (Option.some.inj same)).1
      exact absurd isEnd ended

end GraphQL

end ApprovedOps
