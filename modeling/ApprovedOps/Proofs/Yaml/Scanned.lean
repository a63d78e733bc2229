import Mathlib.Data.List.TakeWhile
import ApprovedOps.Proofs.Yaml.Scalars

/-! # Written fields as tokens

What is written for fields is scanned token by token. A line begins with a key or a dash, and where
a line begins further to the left the mappings around it end.
-/

namespace ApprovedOps.Yaml

namespace Layout

/-- The token of a written text. -/
def scalarToken (t : Text) : Token :=
  .scalar (reread t) (styleOf t = .plain)

mutual

/-- The tokens of a field after its key. -/
def fieldTokens : WrittenField → List Token
  | .text t => [scalarToken t]
  | .texts ts => ts.flatMap fun t => [.blockEntry, scalarToken t]
  | .fields fs => .blockMappingStart :: entryTokens fs ++ [.blockEnd]

/-- The tokens of fields. -/
def entryTokens : List (Text × WrittenField) → List Token
  | [] => []
  | (key, f) :: fs => [.key, .scalar key true, .value] ++ fieldTokens f ++ entryTokens fs

end

/-- A key that is written as it is: a word that is read as a text. -/
structure Key (k : Text) : Prop where
  /-- It may be plain. -/
  plain : allowsPlain k = true
  /-- There are no spaces in it. -/
  spaceless : ∀ p ∈ k, isSpace p = false
  /-- It is short enough for a key. -/
  short : k.length ≤ 1024
  /-- It does not begin like the end of a document. -/
  apart : ∀ p ∈ k.head?, p ≠ .char '-' ∧ p ≠ .char '.'

/-- Fields that can be written after a key in a column: nothing is empty but texts, and the levels
    leave room on the line. -/
inductive Sound : Nat → WrittenField → Prop
  /-- A text. -/
  | text {m : Nat} {t : Text} : m + 2 < width → Sound m (.text t)
  /-- Texts, further to the right than the line begins. -/
  | texts {m : Nat} {ts : List Text} : ts ≠ [] → 0 < m → m + 2 < width → Sound m (.texts ts)
  /-- Fields. -/
  | fields {m : Nat} {fs : List (Text × WrittenField)} : fs ≠ [] → (∀ e ∈ fs, Key e.1) →
      (fs.map Prod.fst).Nodup → (∀ e ∈ fs, Sound (m + 2) e.2) → Sound m (.fields fs)

theorem Key.word {k : Text} (key : Key k) : Scalar.Word k := by
  have unmarked := (unmarked_of_allowed key.plain).1
  have some_ : k ≠ [] := by
    rintro rfl
    cases key.plain
  exact Unmarked.word (t := []) (by simpa using unmarked) some_ key.spaceless (by simp)

end Layout

namespace Token.Progress

open Cursor Layout

variable {s d e : Progress} {c stop : Cursor} {F ts : List Token} {P : List Nat} {i : Int}
  {o : List Int} {p : CodePoint} {r t w x : Text} {m k n : Nat}

/-! ## Runs -/

/-- The next token at a place where one begins. -/
def takeSettled (s : Progress) : Except Failure (Progress × Bool) := do
  let s := s.unwind s.column
  match s.place.peek with
  | none => return (← s.finish, false)
  | some c => return (← (← s.takeToken c).forgetStale, true)

theorem takeNext_settled (ready : s.settled = .ok e) : s.takeNext = e.takeSettled := by
  rw [settled] at ready
  rw [takeNext, ready]
  rfl

/-- From here on the tokens are found, and in the end they are `ts`. -/
def From (s : Progress) (ts : List Token) : Prop :=
  ∀ n, s.place.rest.length < n → ∃ d, run n s = (d, none) ∧ d.found.reverse = ts

theorem From.step (next : s.takeNext = .ok (d, true))
    (shorter : d.place.rest.length < s.place.rest.length) (h : From d ts) : From s ts := by
  intro n enough
  cases n with
  | zero => cases enough
  | succ n =>
      rw [run, next]
      exact h n (by omega)

theorem From.done (last : s.takeNext = .ok (d, false)) : From s d.found.reverse := by
  intro n enough
  cases n with
  | zero => cases enough
  | succ n =>
      rw [run, last]
      exact ⟨d, rfl, rfl⟩

/-- The progress at the beginning of a line, where a key may begin. -/
def resting (c : Cursor) (F : List Token) (P : List Nat) (i : Int) (o : List Int) : Progress :=
  { place := c, found := F, places := P, indent := i, outer := o }

/-- From the beginning of a line on the tokens are found, wherever those before it were. -/
def Rests (c : Cursor) (F : List Token) (i : Int) (o : List Int) (ts : List Token) : Prop :=
  ∀ P s, s.takeNext = (resting c F P i o).takeSettled → c.rest.length ≤ s.place.rest.length →
    From s ts

theorem From.rest (ready : s.settled = .ok (resting c F P i o))
    (ahead : c.rest.length ≤ s.place.rest.length) (h : Rests c F i o ts) : From s ts :=
  h P s (takeNext_settled ready) ahead

/-- A scalar is found, and then the rest. -/
theorem From.scalar {plain : Bool} (reads : Reads s t plain stop)
    (h : Rests stop (.scalar t plain :: s.found) s.indent s.outer ts) : From s ts := by
  obtain ⟨d, next, shorter, ahead, ready⟩ := reads
  exact .step next shorter (.rest ready ahead h)

/-- Where a line begins further to the left than a mapping, the mapping ends. -/
theorem unwind_close {outer column : Int} (left : column < i) :
    (resting c F P i (outer :: o)).unwind column =
      (resting c (.blockEnd :: F) (c.index :: P) outer o).unwind column := by
  have again (n : Nat) {α : Type} (a : α) (l : List α) :
      List.replicate (n + 1) a ++ l = List.replicate n a ++ a :: l := by
    rw [List.replicate_succ', List.append_assoc, List.singleton_append]
  simp only [unwind, resting, inFlow, List.length_cons, List.length_nil, Nat.zero_add,
    Nat.lt_irrefl, decide_false, Bool.false_eq_true, if_false, unwindTo, left, if_true, again]

theorem Rests.close {outer : Int} (left : (c.column : Int) < i)
    (h : Rests c (.blockEnd :: F) outer o ts) : Rests c F i (outer :: o) ts := by
  intro P s next ahead
  refine h (c.index :: P) s (next.trans ?_) ahead
  have same : (resting c F P i (outer :: o)).unwind (resting c F P i (outer :: o)).column =
      (resting c (.blockEnd :: F) (c.index :: P) outer o).unwind
        (resting c (.blockEnd :: F) (c.index :: P) outer o).column :=
    unwind_close left
  rw [takeSettled, same]
  rfl

/-! ## Keys -/

/-- A key in front of its colon. -/
theorem plain_key (word : Scalar.Word w) (here : c.rest = w ++ .char ':' :: p :: r)
    (blank : isBlank p = true) (parent : Int) :
    Scalar.plain false parent c = (w, false, c.past w) := by
  have ends : Scalar.plainRun false (.char ':' :: p :: r) = 0 := by
    rw [Scalar.plainRun, if_neg (by decide), if_pos (by simp [blank])]
  have next := past_rest here
  have gap : Scalar.plainGap (c.past w) = ⟨[], false, c.past w⟩ := by
    have none_ : (c.past w).takeWhile Cursor.isSpace = ([], c.past w) :=
      takeWhile_eq (t := []) next (by simp) (by simp [Cursor.isSpace])
    have unbroken : Cursor.isBreak (.char ':') = false := by decide
    rw [Scalar.plainGap, none_]
    simp only [isAt_eq next, unbroken, Bool.false_eq_true, if_false]
  rw [Scalar.plain, Scalar.plainFrom_word word here ends, gap]
  simp

/-- The progress in front of the colon of a key. -/
def beforeColon (c : Cursor) (F : List Token) (P : List Nat) (i : Int) (o : List Int) (w : Text) :
    Progress :=
  let spot : KeyPlace :=
    { number := F.length, required := i == c.column, index := c.index, line := c.line,
      column := c.column }
  { resting (c.past w) (.scalar w true :: F) (c.index :: P) i o with
    keys := [some spot], allowsKey := false }

theorem forgetStale_beforeColon (valid : Key w) (here : c.rest = w ++ r) :
    (beforeColon c F P i o w).forgetStale = .ok (beforeColon c F P i o w) := by
  have line := (past_inline here valid.word.inline).2
  have index := past_index here
  have short := valid.short
  have current : ∀ spot ∈ (beforeColon c F P i o w).keys,
      (beforeColon c F P i o w).isStale spot = false := by
    simp only [beforeColon, resting, List.mem_singleton, forall_eq, isStale, Option.any_some, line,
      index]
    simp
    omega
  simp only [forgetStale, beforeColon, resting, List.mapM_cons, List.mapM_nil] at current ⊢
  simp only [current _ (List.mem_singleton.mpr rfl), Bool.false_eq_true, if_false]
  rfl

theorem takeSettled_key (valid : Key w) (here : c.rest = w ++ .char ':' :: p :: r)
    (blank : isBlank p = true) (inside : i ≤ c.column) :
    (resting c F P i o).takeSettled = .ok (beforeColon c F P i o w, true) := by
  obtain ⟨q, w', rfl⟩ := List.exists_cons_of_ne_nil valid.word.some_
  have unwound : (resting c F P i o).unwind (resting c F P i o).column = resting c F P i o :=
    unwind_inside inside
  have apart := valid.apart q rfl
  have unseparated : c.isAtSeparator = false := by
    simp [isAtSeparator, isAtMark, here, Text.startsWith, Text.ofString, Ne.symm apart.1,
      Ne.symm apart.2]
  have token : (resting c F P i o).takeToken q = (resting c F P i o).takePlain := by
    refine takeToken_allowed valid.plain rfl (fun _ => unseparated) here
      (valid.word.shown q List.mem_cons_self).1 fun a head _ => ?_
    cases w' with
    | nil => cases head
    | cons b w' => exact head
  have read : Scalar.plain false i c = (q :: w', false, c.past (q :: w')) :=
    plain_key valid.word here blank i
  have taken : (resting c F P i o).takePlain = .ok (beforeColon c F P i o (q :: w')) := by
    simp [takePlain, rememberKey, resting, forgetKey, forget, bind, Except.bind, pure,
      Except.pure, inFlow, read, beforeColon, add, column]
  have first : (resting c F P i o).place.peek = some q := peek_eq here
  rw [takeSettled]
  simp only [unwound, first, token, taken, bind, Except.bind, forgetStale_beforeColon valid here]
  rfl

theorem takeNext_colon {opened : List Token} {o' : List Int} (valid : Key w)
    (here : c.rest = w ++ .char ':' :: p :: r) (blank : isBlank p = true)
    (deeper : (i < c.column ∧ opened = [.blockMappingStart] ∧ o' = i :: o) ∨
      (i = c.column ∧ opened = [] ∧ o' = o)) :
    ∃ P', (beforeColon c F P i o w).takeNext = .ok (
      { place := c.past (w ++ [.char ':'])
        found := .value :: .scalar w true :: .key :: (opened ++ F)
        places := P', indent := c.column, outer := o', allowsKey := false }, true) := by
  have next : (beforeColon c F P i o w).place.rest = .char ':' :: p :: r := past_rest here
  have further : (beforeColon c F P i o w).place.column = c.column + w.length :=
    (past_inline here valid.word.inline).1
  have long : 0 < w.length := List.length_pos_of_ne_nil valid.word.some_
  have ready : (beforeColon c F P i o w).settled = .ok (beforeColon c F P i o w) := by
    rw [settled, skipBlanks_spaces (k := 0) next (by simp; decide)]
    exact forgetStale_beforeColon valid here
  have unwound : (beforeColon c F P i o w).unwind (beforeColon c F P i o w).column =
      beforeColon c F P i o w := by
    refine unwind_inside ?_
    rw [column, further]
    obtain ⟨less, -⟩ | ⟨same, -⟩ := deeper <;> simp only [beforeColon, resting] <;> omega
  have token : (beforeColon c F P i o w).takeToken (.char ':') =
      (beforeColon c F P i o w).takeValue := by
    have inner : (beforeColon c F P i o w).place.column ≠ 0 := by omega
    have ends : (beforeColon c F P i o w).place.endsAt 1 isBlank = true := by
      rw [endsAt, peekAt_one next]
      exact blank
    simp [takeToken, inner, ends]
  have first : (beforeColon c F P i o w).place.peek = some (.char ':') := peek_eq next
  have stop : c.past (w ++ [.char ':']) = forward 1 (c.past w) := by
    rw [past_append]
    rfl
  rw [takeNext_settled ready, takeSettled]
  simp only [unwound, first, token, bind, Except.bind]
  obtain ⟨less, rfl, rfl⟩ | ⟨same, rfl, rfl⟩ := deeper
  · have two : F.length + 1 + 1 - F.length = 2 := by omega
    simp [takeValue, beforeColon, resting, addBefore, inFlow, deepen, less, two, take, add, stop,
      forgetStale, isStale, bind, Except.bind, pure, Except.pure]
  · simp [takeValue, beforeColon, resting, addBefore, inFlow, deepen, take, add, same, stop,
      forgetStale, isStale, bind, Except.bind, pure, Except.pure]

/-- A key at the beginning of a line, with its colon. -/
theorem Rests.key {opened : List Token} {o' : List Int} (valid : Key w)
    (here : c.rest = w ++ .char ':' :: p :: r) (blank : isBlank p = true)
    (deeper : (i < c.column ∧ opened = [.blockMappingStart] ∧ o' = i :: o) ∨
      (i = c.column ∧ opened = [] ∧ o' = o))
    (h : ∀ P, From
      { place := c.past (w ++ [.char ':'])
        found := .value :: .scalar w true :: .key :: (opened ++ F)
        places := P, indent := c.column, outer := o', allowsKey := false } ts) :
    Rests c F i o ts := by
  have inside : i ≤ c.column := by
    obtain ⟨less, -⟩ | ⟨same, -⟩ := deeper <;> omega
  intro P s next ahead
  have shorter : (c.past w).rest.length < c.rest.length := past_shorter here valid.word.some_
  have after : (c.past w).rest = [.char ':'] ++ p :: r := past_rest here
  obtain ⟨P', colon⟩ := takeNext_colon (P := P) valid here blank deeper
  refine .step (next.trans (takeSettled_key valid here blank inside))
    (Nat.lt_of_lt_of_le shorter ahead) (.step colon ?_ (h P'))
  rw [past_append]
  exact past_shorter after (List.cons_ne_nil _ _)

/-! ## Dashes, and the end -/

/-- A dash at the beginning of a line, in the column of the mapping around it. -/
theorem Rests.dash (here : c.rest = .char '-' :: p :: r) (blank : isBlank p = true)
    (at_ : c.column = m) (deep : 0 < m) (h : ∀ P, From
      { place := c.past [.char '-'], found := .blockEntry :: F, places := P, indent := m,
        outer := o } ts) :
    Rests c F m o ts := by
  subst at_
  have inner : c.column ≠ 0 := Nat.ne_of_gt deep
  intro P s next ahead
  have unwound : (resting c F P c.column o).unwind (resting c F P c.column o).column =
      resting c F P c.column o :=
    unwind_inside (Int.le_refl _)
  have first : (resting c F P c.column o).place.peek = some (.char '-') := peek_eq here
  have ends : c.endsAt 1 isBlank = true := by
    rw [endsAt, peekAt_one here]
    exact blank
  have token : (resting c F P c.column o).takeSettled = .ok (
      { place := c.past [.char '-'], found := .blockEntry :: F, places := c.index :: P,
        indent := c.column, outer := o }, true) := by
    rw [takeSettled]
    simp only [unwound, first]
    simp [takeToken, resting, inner, ends, takeIndicator, inFlow, deepenHere, deepen, column,
      forgetKey, forget, take, add, forgetStale, isStale, bind, Except.bind, pure, Except.pure]
    rfl
  exact .step (next.trans token)
    (Nat.lt_of_lt_of_le (past_shorter (t := [_]) here (List.cons_ne_nil _ _)) ahead) (h _)

/-- At the end of the document the outermost mapping ends. -/
theorem Rests.finish (here : c.rest = []) :
    Rests c F 0 [-1] (F.reverse ++ [.blockEnd]) := by
  intro P s next _
  have unwound : (resting c F P 0 [-1]).unwind (resting c F P 0 [-1]).column =
      resting c F P 0 [-1] :=
    unwind_inside (by simp [column, resting])
  have none_ : (resting c F P 0 [-1]).place.peek = none := by
    rw [peek, resting, here]
    rfl
  have last : (resting c F P 0 [-1]).takeSettled =
      .ok (resting c (.blockEnd :: F) (c.index :: P) (-1) [], false) := by
    rw [takeSettled]
    simp only [unwound, none_]
    simp [Progress.finish, unwind, unwindTo, resting, inFlow, forgetKey, forget, bind, Except.bind,
      pure, Except.pure]
  simpa [resting] using From.done (next.trans last)

/-- The mark of the end of the document. -/
theorem Rests.separator (here : c.rest = Text.ofString "...\n") (start : c.column = 0) :
    Rests c F 0 [-1] (F.reverse ++ [.blockEnd, .documentEnd]) := by
  intro P s next ahead
  have unwound : (resting c F P 0 [-1]).unwind (resting c F P 0 [-1]).column =
      resting c F P 0 [-1] :=
    unwind_inside (by simp [column, resting])
  have dots : c.rest = Text.ofString "..." ++ [.char '\n'] := here
  have first : (resting c F P 0 [-1]).place.peek = some (.char '.') := peek_eq here
  have marks : c.isAtMark "---" = false ∧ c.isAtMark "..." = true := by
    simp only [isAtMark, endsAt, peekAt, here]
    decide
  let marked : Progress :=
    { resting (c.past (Text.ofString "...")) (.documentEnd :: .blockEnd :: F)
        (c.index :: c.index :: P) (-1) [] with allowsKey := false }
  have token : (resting c F P 0 [-1]).takeSettled = .ok (marked, true) := by
    rw [takeSettled]
    simp only [unwound, first]
    simp [takeToken, start, marks, takeSeparator, unwind, unwindTo, resting, inFlow, forgetKey,
      forget, take, add, forgetStale, isStale, bind, Except.bind, pure, Except.pure, marked]
    rfl
  have after : marked.place.rest = .char '\n' :: (spaces 0 ++ []) := past_rest dots
  have pending : Pending marked.place.line marked.keys := .inl rfl
  have ready := settled_newline pending (Nat.le_refl _) after (by simp)
  have shorter := past_shorter dots (by decide)
  refine .step (next.trans token) (Nat.lt_of_lt_of_le shorter ahead) ?_
  have ends : (marked.place.past (.char '\n' :: spaces 0)).rest = [] := past_rest after
  generalize marked.place.past (.char '\n' :: spaces 0) = stop at ready ends
  have none_ : stop.peek = none := by
    rw [peek, ends]
    rfl
  have last : marked.takeNext = .ok (resting stop (.documentEnd :: .blockEnd :: F)
      (c.index :: c.index :: P) (-1) [], false) := by
    rw [takeNext_settled ready, takeSettled, unwind_inside (by simp [column, marked, resting])]
    simp [none_, Progress.finish, unwind, unwindTo, resting, marked, inFlow, forgetKey, forget,
      bind, Except.bind, pure, Except.pure]
  simpa [resting] using From.done last

end Token.Progress

/-! ## The ends of lines -/

namespace Layout

open Cursor

variable {f : WrittenField} {fs : List (Text × WrittenField)} {ts : List Text} {c : Cursor}
  {r t x y : Text} {m k reached : Nat}

/-- The text ends a line. -/
def EndsLine (x : Text) : Prop :=
  ∃ y p, x = y ++ [p] ∧ Cursor.isBreak p = true ∧ p ≠ .char '\r'

theorem endsLine_feed (x : Text) : EndsLine (x ++ [.char '\n']) :=
  ⟨x, _, rfl, by decide, by decide⟩

theorem EndsLine.append (h : EndsLine y) (x : Text) : EndsLine (x ++ y) := by
  obtain ⟨z, p, rfl, rest⟩ := h
  exact ⟨x ++ z, p, (List.append_assoc x z [p]).symm, rest⟩

/-- After the end of a line, spaces are as many as the column. -/
theorem EndsLine.column (h : EndsLine x) (here : c.rest = x ++ (spaces k ++ r)) :
    (c.past (x ++ spaces k)).column = k := by
  obtain ⟨y, p, rfl, break_, other⟩ := h
  rw [List.append_assoc] at here ⊢
  rw [past_append]
  have next : (c.past y).rest = p :: spaces k ++ r := past_rest here
  exact past_newline next break_ other

theorem blockLines_endsLine (writable : ∀ p ∈ t, isWritable p = true) (atStart : Bool)
    (some_ : t ≠ [] ∨ atStart = false) : EndsLine (blockLines m atStart t) := by
  induction t generalizing atStart with
  | nil =>
      obtain absurd_ | rfl := some_
      · exact absurd rfl absurd_
      · exact endsLine_feed []
  | cons p t ih =>
      obtain ⟨first, rest⟩ := List.forall_mem_cons.mp writable
      rw [blockLines]
      split
      · next break_ =>
          cases t with
          | nil => exact ⟨[], p, rfl, (isBreak_writable first).trans break_, (writable_ne first).1⟩
          | cons q t => exact (ih rest true (.inl (List.cons_ne_nil _ _))).append [p]
      · have after := ih rest false (.inr rfl)
        split
        · exact (after.append [p]).append _
        · exact after.append [p]

theorem scalar_endsLine (indent reached : Nat) (t : Text) :
    EndsLine (Layout.scalar indent reached t) := by
  rw [Layout.scalar]
  split
  · exact endsLine_feed _
  · exact (endsLine_feed (Text.ofString "'")).append _
  · exact (endsLine_feed (Text.ofString "\"")).append _
  · next style =>
      have literal := allowsLiteral_of_style style
      simp only [allowsLiteral, needsEscapes, Bool.and_eq_true, Bool.not_eq_true',
        Bool.or_eq_false_iff, List.any_eq_false, Bool.not_eq_false,
        List.isEmpty_eq_false_iff] at literal
      exact (blockLines_endsLine literal.1.2.1 true (.inl literal.1.1)).append _

theorem items_endsLine (some_ : ts ≠ []) : EndsLine (items m ts) := by
  induction ts with
  | nil => exact absurd rfl some_
  | cons t ts ih =>
      rw [items]
      cases ts with
      | nil =>
          rw [items, List.append_nil]
          exact (scalar_endsLine _ _ t).append _
      | cons u ts => exact (ih (List.cons_ne_nil _ _)).append _

theorem fields_endsLine (some_ : fs ≠ [])
    (each : ∀ e ∈ fs, ∀ reached, EndsLine (field m reached e.2)) : EndsLine (fields m fs) := by
  induction fs with
  | nil => exact absurd rfl some_
  | cons e fs ih =>
      obtain ⟨first, rest⟩ := List.forall_mem_cons.mp each
      rw [fields]
      cases fs with
      | nil =>
          rw [fields, List.append_nil]
          exact (first _).append _
      | cons e' fs => exact (ih (List.cons_ne_nil _ _) rest).append _

theorem Sound.endsLine (sound : Sound m f) (reached : Nat) : EndsLine (field m reached f) := by
  induction sound generalizing reached with
  | text _ =>
      rw [field]
      exact scalar_endsLine _ _ _
  | texts some_ _ _ =>
      rw [field]
      exact (items_endsLine some_).append [_]
  | fields some_ _ _ _ ih =>
      rw [field]
      exact (fields_endsLine some_ ih).append [_]

/-- A field begins with a blank. -/
theorem field_front (m reached : Nat) (f : WrittenField) :
    ∃ p y, field m reached f = p :: y ∧ isBlank p = true := by
  cases f with
  | text t =>
      rw [field, Layout.scalar]
      split <;> exact ⟨.char ' ', _, rfl, by decide⟩
  | texts ts =>
      rw [field]
      exact ⟨_, _, rfl, by decide⟩
  | fields fs =>
      rw [field]
      exact ⟨_, _, rfl, by decide⟩

end Layout

/-! ## Fields -/

namespace Token.Progress

open Cursor Layout

variable {c : Cursor} {F ts : List Token} {P : List Nat} {i : Int} {o : List Int} {f : WrittenField}
  {fs : List (Text × WrittenField)} {texts : List Text} {r t x : Text} {m k reached : Nat}

/-- Between lines: nothing but a place where the next token begins, or the end. -/
def Shown (r : Text) : Prop :=
  ∀ p ∈ r.head?, isBlank p = false ∧ p ≠ .char '#'

theorem shown_key {w : Text} (valid : Key w) (r : Text) : Shown (w ++ r) := by
  obtain ⟨p, w, rfl⟩ := List.exists_cons_of_ne_nil valid.word.some_
  rintro q ⟨⟩
  exact ⟨(valid.word.shown _ List.mem_cons_self).1, by simpa using valid.word.hash⟩

/-- After a key in column `m` the field is found, and the reader goes on with the next line. -/
def Found (m : Nat) (f : WrittenField) : Prop :=
  ∀ {reached k : Nat} {c : Cursor} {F ts : List Token} {P : List Nat} {o : List Int} {r : Text},
    c.rest = field m reached f ++ (spaces k ++ r) → k ≤ m → Shown r → m ≤ c.column →
    Rests (c.past (field m reached f ++ spaces k)) ((fieldTokens f).reverse ++ F) m o ts →
    From { place := c, found := F, places := P, indent := m, outer := o, allowsKey := false } ts

/-- A line break and the indentation of the next line are passed. -/
theorem From.newline {allowsKey : Bool} (here : c.rest = .char '\n' :: (spaces k ++ r))
    (shown : Shown r) (h : Rests (c.past (.char '\n' :: spaces k)) F i o ts) :
    From { place := c, found := F, places := P, indent := i, outer := o, allowsKey } ts := by
  let s : Progress := { place := c, found := F, places := P, indent := i, outer := o, allowsKey }
  have pending : Pending c.line s.keys := .inl rfl
  have ready := settled_newline pending (Nat.le_refl _) here shown
  exact .rest ready (past_length_le (t := .char '\n' :: spaces k) here) h

theorem items_line (some_ : texts ≠ []) : ∃ z, items m texts = spaces m ++ .char '-' :: z := by
  obtain ⟨t, texts, rfl⟩ := List.exists_cons_of_ne_nil some_
  exact ⟨_, by rw [items]; simp [spaces]; rfl⟩

theorem fields_line (some_ : fs ≠ []) :
    ∃ e ∈ fs, ∃ z, fields m fs = spaces m ++ (e.1 ++ z) := by
  obtain ⟨e, fs, rfl⟩ := List.exists_cons_of_ne_nil some_
  exact ⟨e, List.mem_cons_self, _, by rw [fields]; simp [spaces]; rfl⟩

/-- The items of a list are found, one on each line. -/
theorem items_rests (some_ : texts ≠ []) (inner : 0 < m) (narrow : m + 2 < width)
    (written : items m texts = spaces m ++ x) (here : c.rest = x ++ (spaces k ++ r))
    (column : c.column = m) (left : k ≤ m) (shown : Shown r)
    (h : Rests (c.past (x ++ spaces k)) ((fieldTokens (.texts texts)).reverse ++ F) m o ts) :
    Rests c F m o ts := by
  induction texts generalizing c F x with
  | nil => exact absurd rfl some_
  | cons t texts ih =>
      obtain rfl : x = .char '-' :: (Layout.scalar (m + 2) (m + 1) t ++ items m texts) := by
        rw [items, show Layout.step = 2 from rfl] at written
        simpa [spaces] using written.symm
      obtain ⟨p, y, front, blank⟩ := field_front m (m + 1) (.text t)
      rw [field, show Layout.step = 2 from rfl] at front
      have dash : c.rest = .char '-' :: p :: (y ++ items m texts ++ (spaces k ++ r)) := by
        rw [here, front]
        simp
      have tokens : (fieldTokens (.texts (t :: texts))).reverse ++ F =
          (fieldTokens (.texts texts)).reverse ++ (scalarToken t :: .blockEntry :: F) := by
        simp [fieldTokens]
      rw [tokens] at h
      refine .dash dash blank column inner fun P => ?_
      have next : (c.past [.char '-']).rest =
          Layout.scalar (m + 2) (m + 1) t ++ (items m texts ++ (spaces k ++ r)) :=
        past_rest (by simpa using here)
      have further : m ≤ (c.past [.char '-']).column := by
        have := (past_inline (t := [.char '-']) dash (by simp [Inline]; decide)).1
        omega
      cases texts with
      | nil =>
          refine .scalar (reads_scalar rfl rfl further narrow next left shown) ?_
          simpa [items, fieldTokens, scalarToken, ← past_append] using h
      | cons u texts =>
          obtain ⟨z, more⟩ := items_line (m := m) (List.cons_ne_nil u texts)
          rw [more, List.append_assoc] at next
          have dashed : Shown (.char '-' :: z ++ (spaces k ++ r)) := by simp [Shown]; decide
          refine .scalar (reads_scalar rfl rfl further narrow next (Nat.le_refl m) dashed)
            (ih (List.cons_ne_nil _ _) more (past_rest (by simpa using next))
              ((scalar_endsLine _ _ t).column next) ?_)
          simpa [more, scalarToken, ← past_append] using h

/-- The ways in which the key at the beginning of a line stands to the mapping around it: it begins
    a mapping further to the right, or another entry. -/
def Deeper (m : Nat) (i : Int) (o : List Int) (opened : List Token) (o' : List Int) : Prop :=
  (i < m ∧ opened = [.blockMappingStart] ∧ o' = i :: o) ∨ (i = m ∧ opened = [] ∧ o' = o)

/-- The entries of a mapping are found, each from a line of its own on. -/
theorem entries_rests {opened : List Token} {o' : List Int} (some_ : fs ≠ [])
    (keys : ∀ e ∈ fs, Key e.1) (sound : ∀ e ∈ fs, Sound m e.2) (each : ∀ e ∈ fs, Found m e.2)
    (written : fields m fs = spaces m ++ x) (here : c.rest = x ++ (spaces k ++ r))
    (column : c.column = m) (left : k ≤ m) (shown : Shown r) (deeper : Deeper m i o opened o')
    (h : Rests (c.past (x ++ spaces k)) ((entryTokens fs).reverse ++ (opened ++ F)) m o' ts) :
    Rests c F i o ts := by
  induction fs generalizing c F x i o opened with
  | nil => exact absurd rfl some_
  | cons e fs ih =>
      obtain ⟨key, f⟩ := e
      obtain ⟨valid, keys⟩ := List.forall_mem_cons.mp keys
      obtain ⟨sound_, sound⟩ := List.forall_mem_cons.mp sound
      obtain ⟨found, each⟩ := List.forall_mem_cons.mp each
      obtain rfl : x = key ++ .char ':' :: (field m (m + key.length + 1) f ++ fields m fs) := by
        rw [fields] at written
        simpa [spaces] using written.symm
      obtain ⟨p, y, front, blank⟩ := field_front m (m + key.length + 1) f
      have colon : c.rest = key ++ .char ':' :: p :: (y ++ fields m fs ++ (spaces k ++ r)) := by
        rw [here, front]
        simp
      have tokens : (entryTokens ((key, f) :: fs)).reverse ++ (opened ++ F) =
          (entryTokens fs).reverse ++ ((fieldTokens f).reverse ++
            (.value :: .scalar key true :: .key :: (opened ++ F))) := by
        simp [entryTokens]
      rw [tokens] at h
      have place : c.rest = (key ++ [.char ':']) ++ (p :: y ++ (fields m fs ++ (spaces k ++ r))) := by
        rw [colon]
        simp
      have next : (c.past (key ++ [.char ':'])).rest =
          field m (m + key.length + 1) f ++ (fields m fs ++ (spaces k ++ r)) := by
        rw [front]
        exact past_rest place
      have further : m ≤ (c.past (key ++ [.char ':'])).column := by
        have inline : Inline (key ++ [.char ':']) := by
          refine inline_append.mpr ⟨valid.word.inline, ?_⟩
          simp [Inline]
          decide
        rw [(past_inline place inline).1]
        omega
      refine .key valid colon blank (by rw [column]; exact deeper) fun P => ?_
      rw [column]
      cases fs with
      | nil =>
          rw [fields, List.nil_append] at next
          refine found next left shown further ?_
          simpa [fields, entryTokens, ← past_append] using h
      | cons e fs =>
          obtain ⟨e', among, z, more⟩ := fields_line (m := m) (List.cons_ne_nil e fs)
          rw [more, List.append_assoc] at next
          have shown' : Shown (e'.1 ++ z ++ (spaces k ++ r)) := by
            rw [List.append_assoc]
            exact shown_key (keys e' among) _
          refine found next (Nat.le_refl m) shown' further
            (ih (List.cons_ne_nil _ _) keys sound each more (past_rest (by simpa using next))
              ((sound_.endsLine _).column next) (.inr ⟨rfl, rfl, rfl⟩) ?_)
          simpa [more, ← past_append] using h

/-- Fields that can be written are found. -/
theorem found_sound (sound : Sound m f) : Found m f := by
  induction sound with
  | @text m t narrow =>
      intro reached k c F ts P o r here left shown further h
      exact .scalar (reads_scalar rfl rfl further narrow here left shown) h
  | @texts m texts some_ inner narrow =>
      intro reached k c F ts P o r here left shown further h
      rw [field] at here h
      obtain ⟨z, more⟩ := items_line (m := m) some_
      have dashed : Shown (.char '-' :: z ++ (spaces k ++ r)) := by simp [Shown]; decide
      have line : c.rest = .char '\n' :: (spaces m ++ (.char '-' :: z ++ (spaces k ++ r))) := by
        rw [here, more]
        simp
      have next : (c.past (.char '\n' :: spaces m)).rest = .char '-' :: z ++ (spaces k ++ r) :=
        past_rest line
      refine .newline line dashed (items_rests some_ inner narrow more next
        (past_newline line (by decide) (by decide)) left shown ?_)
      simpa [more, ← past_append] using h
  | @fields m fs some_ keys distinct sound ih =>
      intro reached k c F ts P o r here left shown further h
      rw [field, show Layout.step = 2 from rfl] at here h
      obtain ⟨e, among, z, more⟩ := fields_line (m := m + 2) some_
      have shown' : Shown (e.1 ++ z ++ (spaces k ++ r)) := by
        rw [List.append_assoc]
        exact shown_key (keys e among) _
      have line : c.rest =
          .char '\n' :: (spaces (m + 2) ++ (e.1 ++ z ++ (spaces k ++ r))) := by
        rw [here, more]
        simp
      have next : (c.past (.char '\n' :: spaces (m + 2))).rest = e.1 ++ z ++ (spaces k ++ r) :=
        past_rest line
      have ends : (c.past (.char '\n' :: fields (m + 2) fs ++ spaces k)).column = k :=
        EndsLine.column ((fields_endsLine some_ fun e among => (sound e among).endsLine).append [_])
          here
      have deeper : Deeper (m + 2) m o [.blockMappingStart] (m :: o) := .inl ⟨by omega, rfl, rfl⟩
      refine .newline line shown' (entries_rests some_ keys sound ih more next
        (past_newline line (by decide) (by decide)) (by omega) shown deeper (.close ?_ ?_))
      · rw [← past_append, show .char '\n' :: spaces (m + 2) ++ (e.1 ++ z ++ spaces k) =
          .char '\n' :: fields (m + 2) fs ++ spaces k by rw [more]; simp, ends]
        omega
      · simpa [more, fieldTokens, ← past_append] using h

/-- The tokens of a document. -/
def documentTokens (fs : List (Text × WrittenField)) : List Token :=
  .blockMappingStart :: entryTokens fs ++ [.blockEnd] ++
    if leavesOpen (lastText (.fields fs)) then [.documentEnd] else []

/-- What may stand after the fields of a document, and the tokens with it. -/
theorem document_tail (fs : List (Text × WrittenField)) :
    ∃ tail, document fs = fields 0 fs ++ (spaces 0 ++ tail) ∧
      (tail = [] ∧ documentTokens fs = .blockMappingStart :: entryTokens fs ++ [.blockEnd] ∨
        tail = Text.ofString "...\n" ∧ documentTokens fs =
          .blockMappingStart :: entryTokens fs ++ [.blockEnd, .documentEnd]) := by
  rw [document, documentTokens]
  split
  · exact ⟨_, rfl, .inr ⟨rfl, by simp⟩⟩
  · exact ⟨_, rfl, .inl ⟨rfl, by simp⟩⟩

theorem rests_document {tail : Text} (some_ : fs ≠ []) (keys : ∀ e ∈ fs, Key e.1)
    (sound : ∀ e ∈ fs, Sound 0 e.2) (here : c.rest = fields 0 fs ++ (spaces 0 ++ tail))
    (column : c.column = 0)
    (final : tail = [] ∧ ts = .blockMappingStart :: entryTokens fs ++ [.blockEnd] ∨
      tail = Text.ofString "...\n" ∧
        ts = .blockMappingStart :: entryTokens fs ++ [.blockEnd, .documentEnd]) :
    Rests c [] (-1) [] ts := by
  have shown : Shown tail := by
    obtain ⟨rfl, -⟩ | ⟨rfl, -⟩ := final <;> (simp [Shown]; try decide)
  have ends : (c.past (fields 0 fs ++ spaces 0)).column = 0 :=
    (fields_endsLine some_ fun e among => (sound e among).endsLine).column here
  have rest : (c.past (fields 0 fs ++ spaces 0)).rest = tail :=
    past_rest (by rw [here, List.append_assoc])
  have deeper : Deeper 0 (-1) [] [.blockMappingStart] [-1] := .inl ⟨by decide, rfl, rfl⟩
  have tokens : ((entryTokens fs).reverse ++ [Token.blockMappingStart]).reverse =
      .blockMappingStart :: entryTokens fs := by
    simp
  have last : Rests (c.past (fields 0 fs ++ spaces 0))
      ((entryTokens fs).reverse ++ [.blockMappingStart]) 0 [-1] ts := by
    generalize c.past (fields 0 fs ++ spaces 0) = stop at rest ends ⊢
    obtain ⟨rfl, rfl⟩ | ⟨rfl, rfl⟩ := final
    · rw [← tokens]
      exact .finish rest
    · rw [← tokens]
      exact .separator rest ends
  exact entries_rests some_ keys sound (fun e among => found_sound (sound e among))
    (List.nil_append _).symm here column (Nat.le_refl 0) shown deeper last

/-- The tokens of a written document are found from its beginning to its end. -/
theorem ofText_document (some_ : fs ≠ []) (keys : ∀ e ∈ fs, Key e.1)
    (sound : ∀ e ∈ fs, Sound 0 e.2) :
    ∃ d, ofText (document fs) = (d, none) ∧ d.found.reverse = documentTokens fs := by
  obtain ⟨e, among, z, more⟩ := fields_line (m := 0) some_
  have valid := keys e among
  obtain ⟨p, w, front⟩ := List.exists_cons_of_ne_nil valid.word.some_
  obtain ⟨tail, whole, final⟩ := document_tail fs
  have shown := shown_key valid (z ++ tail)
  have begins : document fs = spaces 0 ++ (e.1 ++ (z ++ tail)) := by
    rw [whole, more]
    simp [spaces]
  rw [ofText]
  generalize document fs = t at whole begins ⊢
  have first : t = p :: (w ++ (z ++ tail)) := by
    rw [begins, front]
    rfl
  have unmarked : ({ rest := t } : Cursor).isAtChar '\uFEFF' = false := by
    rw [isAtChar_eq first]
    simpa using (valid.word.shown p (by rw [front]; exact List.mem_cons_self)).2
  have ready : (resting { rest := t } [] [] (-1) []).settled =
      .ok (resting { rest := t } [] [] (-1) []) :=
    settled_fresh (k := 0) rfl begins shown
  have from_ : From (resting { rest := t } [] [] (-1) []) (documentTokens fs) :=
    .rest ready (Nat.le_refl _) (rests_document some_ keys sound whole rfl final)
  simp only [unmarked]
  exact from_ _ (Nat.lt_succ_self _)

end Token.Progress

/-! ## The code points of a document -/

namespace Layout

open Token

variable {f : WrittenField} {fs : List (Text × WrittenField)} {p : CodePoint} {s t x : Text}
  {m n reached : Nat}

/-- All code points may stand in a document. -/
def Allowed (t : Text) : Prop :=
  ∀ p ∈ t, isAllowed p = true

theorem allowed_append : Allowed (s ++ t) ↔ Allowed s ∧ Allowed t :=
  List.forall_mem_append

theorem allowed_cons : Allowed (p :: t) ↔ isAllowed p = true ∧ Allowed t :=
  List.forall_mem_cons

theorem allowed_spaces (n : Nat) : Allowed (List.replicate n (.char ' ')) := by
  intro p among
  rw [List.eq_of_mem_replicate among]
  decide

theorem isAllowed_writable (writable : isWritable p = true) : isAllowed p = true := by
  simp only [isWritable, isAllowed, Bool.or_eq_true, Bool.and_eq_true, beq_iff_eq,
    decide_eq_true_eq, bne_iff_ne] at writable ⊢
  omega

theorem isAllowed_bare (bare : isBare p = true) : isAllowed p = true := by
  simp only [isBare, isAllowed, Bool.or_eq_true, Bool.and_eq_true, beq_iff_eq,
    decide_eq_true_eq, bne_iff_ne] at bare ⊢
  omega

theorem allowed_newline (n : Nat) : Allowed (newline n) :=
  allowed_cons.mpr ⟨by decide, allowed_spaces n⟩

theorem allowed_foldPlain {ps : List Text} (h : ∀ run ∈ ps, Allowed run) :
    Allowed (foldPlain n reached ps) := by
  induction ps generalizing reached with
  | nil => exact List.forall_mem_nil _
  | cons run ps ih =>
      obtain ⟨first, rest⟩ := List.forall_mem_cons.mp h
      rw [foldPlain]
      split
      · exact allowed_append.mpr ⟨allowed_newline n, ih rest⟩
      · exact allowed_append.mpr ⟨first, ih rest⟩

theorem allowed_doubleQuotes (h : Allowed t) : Allowed (doubleQuotes t) := by
  intro p among
  obtain ⟨q, member, here⟩ := List.mem_flatMap.mp among
  obtain rfl : p = q := by
    split at here <;> simpa using here
  exact h p member

theorem allowed_foldSingle {ps : List Text} (h : ∀ piece ∈ ps, Allowed piece) (first : Bool) :
    Allowed (foldSingle n reached first ps) := by
  induction ps generalizing reached first with
  | nil => exact List.forall_mem_nil _
  | cons piece ps ih =>
      obtain ⟨here, rest⟩ := List.forall_mem_cons.mp h
      rw [foldSingle]
      split
      · exact allowed_append.mpr ⟨allowed_append.mpr ⟨here, allowed_spaces n⟩, ih rest false⟩
      · split
        · exact allowed_append.mpr ⟨allowed_newline n, ih rest false⟩
        · exact allowed_append.mpr ⟨allowed_doubleQuotes here, ih rest false⟩

theorem allowed_digits (n : Nat) :
    ∀ d ∈ Nat.toDigits 16 n, isAllowed (.char d.toUpper) = true := by
  have digit : ∀ d < 16, isAllowed (.char (Nat.digitChar d).toUpper) = true := by decide
  induction n using Nat.strong_induction_on with
  | _ n ih =>
      by_cases small : n < 16
      · simp [Nat.toDigits_of_lt_base small, digit n small]
      · have below : n / 16 < n := Nat.div_lt_self (by omega) (by omega)
        rw [Nat.toDigits_of_base_le (by omega) (by omega)]
        intro d among
        obtain front | last := List.mem_append.mp among
        · exact ih _ below d front
        · rw [List.mem_singleton.mp last]
          exact digit _ (Nat.mod_lt n (by omega))

theorem allowed_hexUpper (size n : Nat) : Allowed (Text.hexUpper size n) := by
  intro p among
  obtain ⟨d, member, rfl⟩ := List.mem_map.mp among
  obtain zero | digit := List.mem_append.mp member
  · rw [List.eq_of_mem_replicate zero]
    decide
  · obtain ⟨e, inner, rfl⟩ := List.mem_map.mp digit
    exact allowed_digits n e inner

theorem allowed_escape (p : CodePoint) : Allowed (escape p) := by
  rw [escape]
  split
  · next bare => exact allowed_cons.mpr ⟨isAllowed_bare bare, List.forall_mem_nil _⟩
  · split
    · next c letter =>
        have known : isAllowed (.char c) = true := by
          rw [escapeLetter?] at letter
          split at letter <;> cases letter <;> decide
        exact allowed_cons.mpr ⟨by decide, allowed_cons.mpr ⟨known, List.forall_mem_nil _⟩⟩
    · have marks : Allowed (Text.ofString "\\x") ∧ Allowed (Text.ofString "\\u") ∧
          Allowed (Text.ofString "\\U") := by
        refine ⟨?_, ?_, ?_⟩ <;> unfold Allowed <;> decide
      split
      · exact allowed_append.mpr ⟨marks.1, allowed_hexUpper 2 _⟩
      · split
        · exact allowed_append.mpr ⟨marks.2.1, allowed_hexUpper 4 _⟩
        · exact allowed_append.mpr ⟨marks.2.2, allowed_hexUpper 8 _⟩

theorem Doubled.allowed (h : Doubled n t x) : Allowed x := by
  induction h with
  | nil => exact List.forall_mem_nil _
  | bare bare _ ih => exact allowed_cons.mpr ⟨isAllowed_bare bare, ih⟩
  | escape _ _ ih => exact allowed_append.mpr ⟨allowed_escape _, ih⟩
  | fold _ _ ih =>
      exact allowed_append.mpr ⟨allowed_cons.mpr ⟨by decide, allowed_newline n⟩, ih⟩
  | foldSpace _ ih =>
      exact allowed_append.mpr ⟨allowed_cons.mpr ⟨by decide, allowed_newline n⟩,
        allowed_cons.mpr ⟨by decide, allowed_cons.mpr ⟨by decide, ih⟩⟩⟩

theorem allowed_blockLines (h : Allowed t) (atStart : Bool) : Allowed (blockLines n atStart t) := by
  induction t generalizing atStart with
  | nil =>
      rw [blockLines]
      split
      · exact List.forall_mem_nil _
      · exact allowed_newline 0
  | cons p t ih =>
      obtain ⟨first, rest⟩ := allowed_cons.mp h
      rw [blockLines]
      split
      · exact allowed_cons.mpr ⟨first, ih rest true⟩
      · split
        · exact allowed_append.mpr ⟨allowed_spaces n, allowed_cons.mpr ⟨first, ih rest false⟩⟩
        · exact allowed_cons.mpr ⟨first, ih rest false⟩

theorem allowed_blockHeader (t : Text) : Allowed (Layout.blockHeader t) := by
  rw [blockHeader_mark]
  refine allowed_append.mpr ⟨?_, ?_⟩
  · split
    · unfold Allowed
      decide
    · exact List.forall_mem_nil _
  · cases Scalar.chompingOf t <;> unfold Allowed <;> decide

theorem allowed_runs {ps : List Text} (whole : ps.flatten = t)
    (writable : ∀ p ∈ t, isWritable p = true) : ∀ run ∈ ps, Allowed run :=
  fun run member p among =>
    isAllowed_writable (writable p (whole ▸ List.mem_flatten.mpr ⟨run, member, among⟩))

theorem allowed_scalar (narrow : n < width) (t : Text) : Allowed (Layout.scalar n reached t) := by
  have single (p : CodePoint) (h : isAllowed p = true) : Allowed [p] :=
    allowed_cons.mpr ⟨h, List.forall_mem_nil _⟩
  rw [Layout.scalar]
  cases style : styleOf t with
  | plain =>
      have unmarked := (unmarked_of_allowed (allowsPlain_of_style style)).1
      have folded : Allowed (foldPlain n (reached + 1) (runs Layout.isSpace t)) :=
        allowed_foldPlain (allowed_runs (runs_divided Layout.isSpace t).flatten unmarked.writable)
      exact allowed_append.mpr
        ⟨allowed_append.mpr ⟨single _ (by decide), folded⟩, single _ (by decide)⟩
  | single =>
      have quotable := quotable_of_allowed (allowsSingle_of_style style).1
      have folded : Allowed (foldSingle n (reached + 2) true (pieces t)) :=
        allowed_foldSingle (allowed_runs (pieces_divided t).flatten quotable.writable) true
      refine allowed_append.mpr ⟨allowed_append.mpr ⟨?_, folded⟩, ?_⟩ <;> unfold Allowed <;> decide
  | double =>
      obtain ⟨x, folded, doubled⟩ := foldDouble_doubled narrow t (reached + 2) true []
      rw [folded, List.nil_append]
      refine allowed_append.mpr ⟨allowed_append.mpr ⟨?_, doubled.allowed⟩, ?_⟩ <;>
        unfold Allowed <;> decide
  | literal =>
      have literal := allowsLiteral_of_style style
      simp only [allowsLiteral, needsEscapes, Bool.and_eq_true, Bool.not_eq_true',
        Bool.or_eq_false_iff, List.any_eq_false, Bool.not_eq_false] at literal
      have lines : Allowed (blockLines n true t) :=
        allowed_blockLines (fun p among => isAllowed_writable (literal.1.2.1 p among)) true
      refine allowed_append.mpr ⟨allowed_append.mpr ⟨allowed_append.mpr
        ⟨?_, allowed_blockHeader t⟩, single _ (by decide)⟩, lines⟩
      unfold Allowed
      decide

theorem allowed_items {ts : List Text} (narrow : m + 2 < width) : Allowed (items m ts) := by
  induction ts with
  | nil => exact List.forall_mem_nil _
  | cons t ts ih =>
      rw [items]
      exact allowed_append.mpr ⟨allowed_append.mpr ⟨allowed_append.mpr ⟨allowed_spaces m,
        allowed_cons.mpr ⟨by decide, List.forall_mem_nil _⟩⟩, allowed_scalar narrow t⟩, ih⟩

theorem Key.allowed {k : Text} (key : Key k) : Allowed k := fun p among =>
  isAllowed_writable ((unmarked_of_allowed key.plain).1.writable p among)

theorem allowed_fields (keys : ∀ e ∈ fs, Key e.1)
    (each : ∀ e ∈ fs, ∀ reached, Allowed (field m reached e.2)) : Allowed (fields m fs) := by
  induction fs with
  | nil => exact List.forall_mem_nil _
  | cons e fs ih =>
      obtain ⟨key, keys⟩ := List.forall_mem_cons.mp keys
      obtain ⟨first, rest⟩ := List.forall_mem_cons.mp each
      rw [fields]
      exact allowed_append.mpr ⟨allowed_append.mpr ⟨allowed_append.mpr ⟨allowed_append.mpr
        ⟨allowed_spaces m, key.allowed⟩, allowed_cons.mpr ⟨by decide, List.forall_mem_nil _⟩⟩,
        first _⟩, ih keys rest⟩

theorem Sound.allowed (sound : Sound m f) (reached : Nat) : Allowed (field m reached f) := by
  induction sound generalizing reached with
  | text narrow =>
      rw [field]
      exact allowed_scalar narrow _
  | texts _ _ narrow =>
      rw [field]
      exact allowed_cons.mpr ⟨by decide, allowed_items narrow⟩
  | fields _ keys _ _ ih =>
      rw [field]
      exact allowed_cons.mpr ⟨by decide, allowed_fields keys ih⟩

theorem allowed_document (keys : ∀ e ∈ fs, Key e.1) (sound : ∀ e ∈ fs, Sound 0 e.2) :
    Allowed (document fs) := by
  rw [document]
  refine allowed_append.mpr ⟨allowed_fields keys fun e among => (sound e among).allowed, ?_⟩
  split
  · unfold Allowed
    decide
  · exact List.forall_mem_nil _

end Layout

/-- The tokens of a written document. -/
theorem Token.scan_document {fs : List (Text × WrittenField)} (some_ : fs ≠ [])
    (keys : ∀ e ∈ fs, Layout.Key e.1) (sound : ∀ e ∈ fs, Layout.Sound 0 e.2) :
    scan (Layout.document fs) = Progress.documentTokens fs := by
  obtain ⟨d, read, found⟩ := Progress.ofText_document some_ keys sound
  have allowed : (Layout.document fs).dropWhile isAllowed = [] :=
    List.dropWhile_eq_nil_iff.mpr (Layout.allowed_document keys sound)
  rw [scan, allowed, read]
  exact found

end ApprovedOps.Yaml
