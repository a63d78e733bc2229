import ApprovedOps.Proofs.Variables.Cleaned

/-! # Decorated variables

Between the tokens of JSON there may be blanks and comments, after a last element there may be a
comma, and a placeholder may stand for `null`. Each of the two passes undoes some of this and leaves
a text of the same tree, so a decorated text is cleaned as the plain one is.
-/

namespace ApprovedOps

namespace Variables

open Json Json.Reader

/-! ## Texts of a tree -/

/-- What a text may have besides the tokens and the blanks of JSON. -/
structure Manner where
  /-- Comments, and placeholders. -/
  comments : Bool
  /-- A comma after the last element. -/
  commas : Bool

/-- JSON alone. -/
def Manner.plain : Manner := ⟨false, false⟩

/-- JSON with every decoration. -/
def Manner.decorated : Manner := ⟨true, true⟩

/-- What begins a comment that ends with its line. -/
def lineMarks : List Text := ["#", "//"]

/-- What may stand between two tokens. -/
inductive Gap (m : Manner) : Text → Prop where
  | nil : Gap m []
  | blank {c s} : isBlank c = true → Gap m s → Gap m (c :: s)
  | line {mark body s} : m.comments = true → mark ∈ lineMarks → .char '\n' ∉ body → Gap m s →
      Gap m (mark ++ (body ++ .char '\n' :: s))
  | block {body s} : m.comments = true → ¬Text.ofString "*/" <:+: body → Gap m s →
      Gap m (.char '/' :: .char '*' :: (body ++ .char '*' :: .char '/' :: s))

/-- What may stand between the last element and the closing bracket. -/
inductive Tail (m : Manner) : Text → Prop where
  | gap {g} : Gap m g → Tail m g
  | comma {g g'} : m.commas = true → Gap m g → Gap m g' → Tail m (g ++ .char ',' :: g')

/-- What may stand after the last token. -/
inductive Ending (m : Manner) : Text → Prop where
  | gap {g} : Gap m g → Ending m g
  | line {g mark body} : m.comments = true → Gap m g → mark ∈ lineMarks → .char '\n' ∉ body →
      Ending m (g ++ (mark ++ body))

/-- Is the text what stands between two brackets, some elements with commas between them? -/
inductive Series {α : Type} (m : Manner) (each : α → Text → Prop) : List α → Text → Prop where
  | last {x g s t} : Gap m g → each x s → Tail m t → Series m each [x] (g ++ (s ++ t))
  | next {x xs g s g' t} : Gap m g → each x s → Gap m g' → Series m each xs t →
      Series m each (x :: xs) (g ++ (s ++ (g' ++ .char ',' :: t)))

/-- Is the text a name, a colon, and a value? -/
inductive Named (m : Manner) (each : Tree → Text → Prop) : Text × Tree → Text → Prop where
  | mk {name v g g' s} : StringBody name → Gap m g → Gap m g' → each v s →
      Named m each (name, v) (between name ++ (g ++ .char ':' :: (g' ++ s)))

/-- Is the text one of the tree, from its first token to its last? -/
inductive Laid (m : Manner) : Tree → Text → Prop where
  | null : Laid m .null (Text.ofString "null")
  | placeholder {c name} : m.comments = true → c.isNameStart = true →
      (∀ d ∈ name, d.isNameContinue = true) → Laid m .null (.char '$' :: c :: name)
  | word {w v} : (w, v) ∈ words → Laid m (.word w v) w
  | number {w} : IsNumber w → Laid m (.number w) w
  | string {body} : StringBody body → Laid m (.string body) (between body)
  | noItem {g} : Gap m g → Laid m (.array []) (.char '[' :: (g ++ [.char ']']))
  | array {items s} : Series m (Laid m) items s →
      Laid m (.array items) (.char '[' :: (s ++ [.char ']']))
  | noMember {g} : Gap m g → Laid m (.object []) (.char '\x7b' :: (g ++ [.char '\x7d']))
  | object {members s} : Series m (Named m (Laid m)) members s →
      Laid m (.object members) (.char '\x7b' :: (s ++ [.char '\x7d']))

/-- Is the text one of the tree? -/
inductive Written (m : Manner) (v : Tree) : Text → Prop where
  | mk {g s e} : Gap m g → Laid m v s → Ending m e → Written m v (g ++ (s ++ e))

/-! ## Gaps -/

/-- Does the text begin with none of the code points that a name goes on with? -/
def EndsName (r : Text) : Prop :=
  ∀ c, r.head? = some c → c.isNameContinue = false

/-- Does the text begin with a closing bracket? -/
def Closes (r : Text) : Prop :=
  ∃ c r', r = .char c :: r' ∧ (c = ']' ∨ c = '\x7d')

theorem blank_solid {c : CodePoint} (h : isBlank c = true) :
    c.isBlank = true ∧ c.isNameContinue = false ∧ plain c = true ∧ c.isAsciiDigit = false := by
  simp only [isBlank, Bool.or_eq_true, decide_eq_true_eq] at h
  obtain ((rfl | rfl) | rfl) | rfl := h <;> decide

theorem mark_head {mark : Text} (h : mark ∈ lineMarks) :
    ∃ c t, mark = .char c :: t ∧ (c = '#' ∨ c = '/') := by
  simp only [lineMarks, List.mem_cons, List.not_mem_nil, or_false] at h
  obtain rfl | rfl := h
  · exact ⟨'#', [], rfl, .inl rfl⟩
  · exact ⟨'/', ['/'], rfl, .inr rfl⟩

/-- A gap is empty, or begins with a blank or a comment. -/
theorem gap_head {m : Manner} {g : Text} (h : Gap m g) :
    g = [] ∨ ∃ c t, g = c :: t ∧ (isBlank c = true ∨ c = .char '#' ∨ c = .char '/') := by
  cases h with
  | nil => exact .inl rfl
  | blank blank_ rest => exact .inr ⟨_, _, rfl, .inl blank_⟩
  | line comments among noBreak rest =>
      obtain ⟨c, t, rfl, rfl | rfl⟩ := mark_head among
      · exact .inr ⟨_, _, rfl, .inr (.inl rfl)⟩
      · exact .inr ⟨_, _, rfl, .inr (.inr rfl)⟩
  | block comments closed rest => exact .inr ⟨_, _, rfl, .inr (.inr rfl)⟩

theorem gap_endsName {m : Manner} {g r : Text} (h : Gap m g) (ends : EndsName r) :
    EndsName (g ++ r) := by
  obtain rfl | ⟨c, t, rfl, first⟩ := gap_head h
  · exact ends
  · rintro d ⟨⟩
    obtain blank | rfl | rfl := first
    · exact (blank_solid blank).2.1
    · rfl
    · rfl

theorem tail_endsName {m : Manner} {t r : Text} (h : Tail m t) (closes : Closes r) :
    EndsName (t ++ r) := by
  cases h with
  | gap gap =>
      refine gap_endsName gap ?_
      obtain ⟨c, r', rfl, rfl | rfl⟩ := closes <;>
      · rintro d ⟨⟩
        rfl
  | comma commas gap gap' =>
      rw [List.append_assoc]
      refine gap_endsName gap ?_
      rintro d ⟨⟩
      rfl

theorem ending_endsName {m : Manner} {e : Text} (h : Ending m e) : EndsName e := by
  cases h with
  | gap gap =>
      have ends := gap_endsName gap (r := []) nofun
      rwa [List.append_nil] at ends
  | line comments gap among noBreak =>
      refine gap_endsName gap ?_
      obtain ⟨c, t, rfl, rfl | rfl⟩ := mark_head among
      · rintro d ⟨⟩
        rfl
      · rintro d ⟨⟩
        rfl

theorem gap_append {m : Manner} {g g' : Text} (h : Gap m g) (h' : Gap m g') :
    Gap m (g ++ g') := by
  induction h with
  | nil => exact h'
  | blank blank_ rest ih => exact .blank blank_ ih
  | @line mark body s comments among noBreak rest ih =>
      rw [List.append_assoc, List.append_assoc, List.cons_append]
      exact .line comments among noBreak ih
  | @block body s comments closed rest ih =>
      rw [List.cons_append, List.cons_append, List.append_assoc, List.cons_append,
        List.cons_append]
      exact .block comments closed ih

/-- Without comments there are only blanks. -/
theorem gap_blanks {m : Manner} (none_ : m.comments = false) {g : Text} (h : Gap m g) :
    ∀ c ∈ g, isBlank c = true := by
  induction h with
  | nil => simp
  | blank blank_ rest ih => exact List.forall_mem_cons.mpr ⟨blank_, ih⟩
  | line comments among noBreak rest ih =>
      rw [none_] at comments
      cases comments
  | block comments closed rest ih =>
      rw [none_] at comments
      cases comments

/-! ## Comments -/

theorem commentTail_body {body : Text} (h : ¬Text.ofString "*/" <:+: body) (r : Text) :
    commentTail (body ++ .char '*' :: .char '/' :: r) = some (body.length + 2) := by
  induction body with
  | nil => rfl
  | cons c body ih =>
      have later := ih fun inside => h (inside.trans (List.infix_cons (List.infix_refl body)))
      have here : ¬∃ r', c = .char '*' ∧ body ++ .char '*' :: .char '/' :: r = .char '/' :: r' := by
        rintro ⟨r', rfl, text⟩
        cases body with
        | nil => cases text
        | cons d body =>
            obtain ⟨rfl, -⟩ := List.cons.inj text
            exact h ⟨[], body, rfl⟩
      have step : commentTail (c :: (body ++ .char '*' :: .char '/' :: r)) =
          (commentTail (body ++ .char '*' :: .char '/' :: r)).map (· + 1) := by
        rw [commentTail.eq_def]
        split
        next none_ => cases none_
        next r' text =>
          obtain ⟨star, rest⟩ := List.cons.inj text
          exact absurd ⟨r', star, rest⟩ here
        next text =>
          cases text
          rfl
      rw [List.cons_append, step, later]
      rfl

theorem lineTail_body {body r : Text} (h : .char '\n' ∉ body)
    (stops : r = [] ∨ ∃ t, r = .char '\n' :: t) : lineTail (body ++ r) = body.length := by
  have all : ∀ c ∈ body, decide (c ≠ .char '\n') = true := by
    intro c among
    have other : c ≠ .char '\n' := by
      rintro rfl
      exact h among
    simp [other]
  rw [lineTail, List.takeWhile_append_of_pos all]
  obtain rfl | ⟨t, rfl⟩ := stops <;> simp

theorem of_mark {mark : Text} (h : mark ∈ lineMarks) (s : Text) :
    ∃ c r n, mark ++ s = c :: r ∧ Decoration.of c r = .comment n ∧
      r.drop n = s.drop (lineTail s) := by
  simp only [lineMarks, List.mem_cons, List.not_mem_nil, or_false] at h
  obtain rfl | rfl := h
  · exact ⟨.char '#', s, lineTail s, rfl,
      by rw [Decoration.of.eq_def, if_neg (by decide), if_pos rfl], rfl⟩
  · refine ⟨.char '/', .char '/' :: s, 1 + lineTail s, rfl, ?_, ?_⟩
    · rw [Decoration.of, if_neg (by decide), if_neg (by decide), if_pos rfl, if_pos rfl]
    · rw [Nat.add_comm, List.drop_succ_cons]

/-- A comment that ends with its line is dropped up to the end of the line. -/
theorem dropComments_mark {mark : Text} (h : mark ∈ lineMarks) (s : Text) :
    dropComments (mark ++ s) = dropComments (s.drop (lineTail s)) := by
  obtain ⟨c, r, n, text, kind, rest⟩ := of_mark h s
  rw [text, dropComments, kind]
  dsimp only
  rw [rest]

theorem of_block {body : Text} (h : ¬Text.ofString "*/" <:+: body) (r : Text) :
    ∃ n, Decoration.of (.char '/') (.char '*' :: (body ++ .char '*' :: .char '/' :: r)) =
      .comment n ∧ (.char '*' :: (body ++ .char '*' :: .char '/' :: r)).drop n = r := by
  refine ⟨1 + (body.length + 2), ?_, ?_⟩
  · rw [Decoration.of, if_neg (by decide), if_neg (by decide), if_pos rfl,
      if_neg (by decide), if_pos rfl, commentTail_body h]
  · have split : body ++ .char '*' :: .char '/' :: r = (body ++ Text.ofString "*/") ++ r := by
      rw [List.append_assoc]
      rfl
    rw [Nat.add_comm, List.drop_succ_cons, split, List.drop_left' (by simp; rfl)]

theorem dropComments_block {body : Text} (h : ¬Text.ofString "*/" <:+: body) (r : Text) :
    dropComments (.char '/' :: .char '*' :: (body ++ .char '*' :: .char '/' :: r)) =
      dropComments r := by
  obtain ⟨n, kind, rest⟩ := of_block h r
  rw [dropComments, kind]
  dsimp only
  rw [rest]

theorem of_name {c : CodePoint} {name r : Text} (first : c.isNameStart = true)
    (all : ∀ d ∈ name, d.isNameContinue = true) (ends : EndsName r) :
    ∃ n, Decoration.of (.char '$') (c :: (name ++ r)) = .placeholder n ∧
      (c :: (name ++ r)).drop n = r := by
  have run : (name ++ r).takeWhile CodePoint.isNameContinue = name := by
    rw [List.takeWhile_append_of_pos all]
    cases r with
    | nil => simp
    | cons d r => rw [List.takeWhile_cons_of_neg (by simp [ends d rfl]), List.append_nil]
  refine ⟨1 + name.length, ?_, ?_⟩
  · rw [Decoration.of, if_neg (by decide), if_neg (by decide), if_neg (by decide),
      if_pos rfl, if_pos first, run]
  · rw [Nat.add_comm, List.drop_succ_cons, List.drop_left' rfl]

theorem dropComments_placeholder {c : CodePoint} {name r : Text} (first : c.isNameStart = true)
    (all : ∀ d ∈ name, d.isNameContinue = true) (ends : EndsName r) :
    dropComments (.char '$' :: c :: (name ++ r)) = Text.ofString "null" ++ dropComments r := by
  obtain ⟨n, kind, rest⟩ := of_name first all ends
  rw [dropComments, kind]
  dsimp only
  rw [rest]

theorem gap_dropComments {m : Manner} {g : Text} (h : Gap m g) :
    ∃ g', Gap ⟨false, m.commas⟩ g' ∧ ∀ r, dropComments (g ++ r) = g' ++ dropComments r := by
  induction h with
  | nil => exact ⟨[], .nil, fun r => rfl⟩
  | @blank c s blank_ rest ih =>
      obtain ⟨g', gap, drops⟩ := ih
      refine ⟨c :: g', .blank blank_ gap, fun r => ?_⟩
      rw [List.cons_append, dropComments_keeps.plain c _ (blank_solid blank_).2.2.1, drops]
      rfl
  | @line mark body s comments among noBreak rest ih =>
      obtain ⟨g', gap, drops⟩ := ih
      refine ⟨.char '\n' :: g', .blank rfl gap, fun r => ?_⟩
      rw [List.append_assoc, List.append_assoc, dropComments_mark among, List.cons_append,
        lineTail_body noBreak (.inr ⟨_, rfl⟩), List.drop_left' rfl,
        dropComments_keeps.plain _ _ rfl, drops]
      rfl
  | @block body s comments closed rest ih =>
      obtain ⟨g', gap, drops⟩ := ih
      refine ⟨g', gap, fun r => ?_⟩
      rw [List.cons_append, List.cons_append, List.append_assoc, List.cons_append,
        List.cons_append, dropComments_block closed, drops]

/-! ## Passes -/

/-- Does a pass over a text turn the texts of one manner into those of another? -/
structure Pass (m m' : Manner) (f : Text → Text) : Prop extends Keeps f where
  gap : ∀ g, Gap m g → ∃ g', Gap m' g' ∧ ∀ r, f (g ++ r) = g' ++ f r
  tail : ∀ t, Tail m t → ∃ t', Tail m' t' ∧ ∀ r, Closes r → f (t ++ r) = t' ++ f r
  null : ∀ s, Laid m .null s → ∃ s', Laid m' .null s' ∧ ∀ r, EndsName r → f (s ++ r) = s' ++ f r
  ending : ∀ e, Ending m e → Ending m' (f e)

/-- Dropping the comments leaves blanks. -/
theorem dropComments_pass (m : Manner) : Pass m ⟨false, m.commas⟩ dropComments := by
  refine ⟨dropComments_keeps, fun g h => gap_dropComments h, ?_, ?_, ?_⟩
  · intro t h
    cases h with
    | gap gap =>
        obtain ⟨g', gap', drops⟩ := gap_dropComments gap
        exact ⟨g', .gap gap', fun r _ => drops r⟩
    | comma commas before after =>
        obtain ⟨g, gap, drops⟩ := gap_dropComments before
        obtain ⟨g', gap', drops'⟩ := gap_dropComments after
        refine ⟨g ++ .char ',' :: g', .comma commas gap gap', fun r _ => ?_⟩
        rw [List.append_assoc, List.cons_append, drops, dropComments,
          of_plain _ (.inr rfl)]
        dsimp only
        rw [drops', List.append_assoc]
        rfl
  · intro s h
    cases h with
    | null =>
        exact ⟨_, .null, fun r _ => keeps_plain dropComments_keeps (by decide) r⟩
    | placeholder comments first all =>
        exact ⟨_, .null, fun r ends => dropComments_placeholder first all ends⟩
  · intro e h
    cases h with
    | gap gap =>
        obtain ⟨g', gap', drops⟩ := gap_dropComments gap
        have whole := drops []
        rw [List.append_nil, dropComments_keeps.nil, List.append_nil] at whole
        rw [whole]
        exact .gap gap'
    | @line g mark body comments gap among noBreak =>
        obtain ⟨g', gap', drops⟩ := gap_dropComments gap
        have line := lineTail_body (r := []) noBreak (.inl rfl)
        rw [List.append_nil] at line
        rw [drops, dropComments_mark among, line, List.drop_length, dropComments_keeps.nil,
          List.append_nil]
        exact .gap gap'

theorem dropCommas_blanks {g : Text} (blanks : ∀ c ∈ g, isBlank c = true) (r : Text) :
    dropCommas (g ++ r) = g ++ dropCommas r :=
  keeps_plain dropCommas_keeps (fun c among => (blank_solid (blanks c among)).2.2.1) r

theorem closesNext_closes {g r : Text} (blanks : ∀ c ∈ g, isBlank c = true) (closes : Closes r) :
    closesNext (g ++ r) = true := by
  obtain ⟨c, r', rfl, bracket⟩ := closes
  have solid : CodePoint.isBlank (.char c) = false := by obtain rfl | rfl := bracket <;> rfl
  have next : (g ++ .char c :: r').dropWhile CodePoint.isBlank = .char c :: r' := by
    rw [List.dropWhile_append_of_pos fun d among => (blank_solid (blanks d among)).1,
      List.dropWhile_cons_of_neg (by simp [solid])]
  rw [closesNext, next]
  obtain rfl | rfl := bracket <;> rfl

/-- Where there are no comments, dropping the commas leaves JSON. -/
theorem dropCommas_pass (commas : Bool) : Pass ⟨false, commas⟩ Manner.plain dropCommas := by
  have kept (g : Text) (h : Gap ⟨false, commas⟩ g) : Gap Manner.plain g := by
    induction h with
    | nil => exact .nil
    | blank blank_ rest ih => exact .blank blank_ ih
    | line comments among noBreak rest ih => cases comments
    | block comments closed rest ih => cases comments
  refine ⟨dropCommas_keeps, ?_, ?_, ?_, ?_⟩
  · intro g h
    exact ⟨g, kept g h, dropCommas_blanks (gap_blanks rfl h)⟩
  · intro t h
    cases h with
    | gap gap => exact ⟨t, .gap (kept t gap), fun r _ => dropCommas_blanks (gap_blanks rfl gap) r⟩
    | @comma g g' _ before after =>
        refine ⟨g ++ g', .gap (gap_append (kept g before) (kept g' after)), fun r closes => ?_⟩
        have blanks := gap_blanks rfl after
        rw [List.append_assoc, List.cons_append, dropCommas_blanks (gap_blanks rfl before),
          dropCommas, if_neg (by decide),
          if_pos (by simp [closesNext_closes blanks closes]), dropCommas_blanks blanks,
          List.append_assoc]
  · intro s h
    cases h with
    | null => exact ⟨_, .null, fun r _ => keeps_plain dropCommas_keeps (by decide) r⟩
    | placeholder comments first all => cases comments
  · intro e h
    cases h with
    | gap gap =>
        have whole := dropCommas_blanks (gap_blanks rfl gap) []
        rw [List.append_nil, dropCommas_keeps.nil, List.append_nil] at whole
        rw [whole]
        exact .gap (kept e gap)
    | line comments => cases comments

theorem plain_token {w : Text} (h : IsNumber w) : ∀ c ∈ w, plain c = true :=
  number_chars h (fun _ digit => plain_digit digit) (by decide)

/-- Does the text begin as values do? -/
def Opens (s : Text) : Prop :=
  ∃ c t, s = c :: t ∧ opens c = true

theorem laid_opens {m : Manner} {v : Tree} {s : Text} (h : Laid m v s) : Opens s := by
  have words_ : ∀ w ∈ words, w.1.head?.any opens = true := by decide
  cases h with
  | null => exact ⟨'n', _, rfl, rfl⟩
  | placeholder comments first all => exact ⟨'$', _, rfl, rfl⟩
  | word among =>
      have head := words_ _ among
      cases s with
      | nil => cases head
      | cons c s => exact ⟨c, s, rfl, head⟩
  | number written =>
      have numeric := numeric_token written []
      rw [List.append_nil] at numeric
      exact opens_numeric numeric
  | string body => exact ⟨'"', _, rfl, rfl⟩
  | noItem gap => exact ⟨'[', _, rfl, rfl⟩
  | array series => exact ⟨'[', _, rfl, rfl⟩
  | noMember gap => exact ⟨'\x7b', _, rfl, rfl⟩
  | object series => exact ⟨'\x7b', _, rfl, rfl⟩

theorem named_opens {m : Manner} {each : Tree → Text → Prop} {x : Text × Tree} {s : Text}
    (h : Named m each x s) : Opens s := by
  cases h
  exact ⟨'"', _, rfl, rfl⟩

/-- A comma in front of a gap and a value is not the last one. -/
theorem closesNext_opens {m : Manner} {g s : Text} (h : Gap m g) (opened : Opens s) (r : Text) :
    closesNext (g ++ (s ++ r)) = false := by
  obtain ⟨c, t, rfl, opens_⟩ := opened
  induction h with
  | nil =>
      simp only [opens, Bool.and_eq_true, Bool.not_eq_true', decide_eq_true_eq] at opens_
      simp [closesNext, List.dropWhile_cons_of_neg, opens_]
  | @blank d s blank_ rest ih =>
      rw [closesNext, List.cons_append, List.dropWhile_cons_of_pos (blank_solid blank_).1]
      exact ih
  | line comments among noBreak rest ih =>
      obtain ⟨d, u, rfl, rfl | rfl⟩ := mark_head among <;> rfl
  | block comments closed rest ih => rfl

theorem closesNext_series {α : Type} {m : Manner} {each : α → Text → Prop} {xs : List α} {s : Text}
    (opened : ∀ x s, each x s → Opens s) (h : Series m each xs s) (r : Text) :
    closesNext (s ++ r) = false := by
  cases h with
  | last gap laid tail =>
      rw [List.append_assoc, List.append_assoc]
      exact closesNext_opens gap (opened _ _ laid) _
  | next gap laid gap' rest =>
      rw [List.append_assoc, List.append_assoc]
      exact closesNext_opens gap (opened _ _ laid) _

theorem comma_endsName (r : Text) : EndsName (.char ',' :: r) := by
  rintro d ⟨⟩
  rfl

section

variable {m m' : Manner} {f : Text → Text} (pass : Pass m m' f)

include pass

/-- If a pass turns the elements of a series, it turns the series. -/
theorem pass_series {α : Type} {each each' : α → Text → Prop} {xs : List α} {s : Text}
    (opened : ∀ x s, each x s → Opens s)
    (turns : ∀ x ∈ xs, ∀ s, each x s →
      ∃ s', each' x s' ∧ ∀ r, EndsName r → f (s ++ r) = s' ++ f r)
    (h : Series m each xs s) :
    ∃ s', Series m' each' xs s' ∧ ∀ r, Closes r → f (s ++ r) = s' ++ f r := by
  induction h with
  | last gap laid tail =>
      obtain ⟨s', laid', passes⟩ := turns _ List.mem_cons_self _ laid
      obtain ⟨g', gap', skips⟩ := pass.gap _ gap
      obtain ⟨t', tail', ends⟩ := pass.tail _ tail
      refine ⟨_, .last gap' laid' tail', fun r closes => ?_⟩
      rw [List.append_assoc, List.append_assoc, skips, passes _ (tail_endsName tail closes),
        ends r closes]
      simp
  | next gap laid between_ rest ih =>
      obtain ⟨s', laid', passes⟩ := turns _ List.mem_cons_self _ laid
      obtain ⟨g', gap', skips⟩ := pass.gap _ gap
      obtain ⟨b', between', skips'⟩ := pass.gap _ between_
      obtain ⟨t', rest', later⟩ := ih fun x among => turns x (List.mem_cons_of_mem _ among)
      refine ⟨_, .next gap' laid' between' rest', fun r closes => ?_⟩
      simp only [List.append_assoc, List.cons_append]
      rw [skips, passes _ (gap_endsName between_ (comma_endsName _)), skips',
        pass.comma _ (closesNext_series opened rest r), later r closes]

theorem pass_named {each each' : Tree → Text → Prop} {x : Text × Tree} {s : Text}
    (turns : ∀ s, each x.2 s → ∃ s', each' x.2 s' ∧ ∀ r, EndsName r → f (s ++ r) = s' ++ f r)
    (h : Named m each x s) :
    ∃ s', Named m' each' x s' ∧ ∀ r, EndsName r → f (s ++ r) = s' ++ f r := by
  cases h with
  | mk name before after laid =>
      obtain ⟨s', laid', passes⟩ := turns _ laid
      obtain ⟨g', before', skips⟩ := pass.gap _ before
      obtain ⟨b', after', skips'⟩ := pass.gap _ after
      refine ⟨_, .mk name before' after' laid', fun r ends => ?_⟩
      simp only [List.append_assoc, List.cons_append]
      rw [pass.between _ _ name, skips, pass.plain _ _ rfl, skips', passes r ends]

/-- A pass turns a text of a tree into another one of the same tree, whatever follows it. -/
theorem pass_laid (v : Tree) : ∀ s, Laid m v s →
    ∃ s', Laid m' v s' ∧ ∀ r, EndsName r → f (s ++ r) = s' ++ f r := by
  have kept {s : Text} (all : ∀ c ∈ s, plain c = true) (r : Text) : f (s ++ r) = s ++ f r :=
    keeps_plain pass.toKeeps all r
  have closes (c : Char) (bracket : c = ']' ∨ c = '\x7d') (r : Text) : Closes (.char c :: r) :=
    ⟨c, r, rfl, bracket⟩
  induction v using Tree.induct with
  | null => exact pass.null
  | word w v =>
      intro s h
      cases h with
      | word among =>
          have plain_ : ∀ w ∈ words, ∀ c ∈ w.1, plain c = true := by decide
          exact ⟨w, .word among, fun r _ => kept (plain_ _ among) r⟩
  | number w =>
      intro s h
      cases h with
      | number written => exact ⟨w, .number written, fun r _ => kept (plain_token written) r⟩
  | string body =>
      intro s h
      cases h with
      | string body_ => exact ⟨_, .string body_, fun r _ => pass.between _ r body_⟩
  | array items ih =>
      intro s h
      cases h with
      | noItem gap =>
          obtain ⟨g', gap', skips⟩ := pass.gap _ gap
          refine ⟨_, .noItem gap', fun r _ => ?_⟩
          simp only [List.append_assoc, List.cons_append, List.nil_append]
          rw [pass.plain _ _ rfl, skips, pass.plain _ _ rfl]
      | array series =>
          obtain ⟨s', series', passes⟩ := pass_series pass (fun _ _ => laid_opens) ih series
          refine ⟨_, .array series', fun r _ => ?_⟩
          simp only [List.append_assoc, List.cons_append, List.nil_append]
          rw [pass.plain _ _ rfl, passes _ (closes ']' (.inl rfl) r), pass.plain _ _ rfl]
  | object members ih =>
      intro s h
      cases h with
      | noMember gap =>
          obtain ⟨g', gap', skips⟩ := pass.gap _ gap
          refine ⟨_, .noMember gap', fun r _ => ?_⟩
          simp only [List.append_assoc, List.cons_append, List.nil_append]
          rw [pass.plain _ _ rfl, skips, pass.plain _ _ rfl]
      | object series =>
          obtain ⟨s', series', passes⟩ := pass_series pass (fun _ _ => named_opens)
            (fun x among s h => pass_named pass (ih x among) h) series
          refine ⟨_, .object series', fun r _ => ?_⟩
          simp only [List.append_assoc, List.cons_append, List.nil_append]
          rw [pass.plain _ _ rfl, passes _ (closes '\x7d' (.inr rfl) r), pass.plain _ _ rfl]

theorem pass_written {v : Tree} {t : Text} (h : Written m v t) : Written m' v (f t) := by
  obtain ⟨gap, laid, ending⟩ := h
  obtain ⟨g', gap', skips⟩ := pass.gap _ gap
  obtain ⟨s', laid', passes⟩ := pass_laid pass v _ laid
  rw [skips, passes _ (ending_endsName ending)]
  exact .mk gap' laid' (pass.ending _ ending)

end

/-- When both passes are over, a text of a tree is a plain one. -/
theorem strip_written {m : Manner} {v : Tree} {t : Text} (h : Written m v t) :
    Written Manner.plain v (strip t) :=
  pass_written (dropCommas_pass m.commas) (pass_written (dropComments_pass m) h)

/-! ## Plain texts -/

theorem gap_solid {g s : Text} (h : Gap Manner.plain g)
    (solid : ∀ c, s.head? = some c → isBlank c = false) : (g ++ s).dropWhile isBlank = s := by
  rw [List.dropWhile_append_of_pos (gap_blanks rfl h)]
  cases s with
  | nil => rfl
  | cons c s => rw [List.dropWhile_cons_of_neg (by simp [solid c rfl])]

theorem opens_solid {s : Text} (h : Opens s) (r : Text) :
    ∀ c, (s ++ r).head? = some c → isBlank c = false := by
  obtain ⟨c, t, rfl, opens_⟩ := h
  rintro d ⟨⟩
  exact isBlank_of_opens opens_

theorem gap_stops {g r : Text} (h : Gap Manner.plain g) (stops : Stops r) : Stops (g ++ r) := by
  cases g with
  | nil => exact stops
  | cons c g =>
      rintro d ⟨⟩
      have blank := gap_blanks rfl h c List.mem_cons_self
      simp only [isBlank, Bool.or_eq_true, decide_eq_true_eq] at blank
      obtain ((rfl | rfl) | rfl) | rfl := blank <;>
        exact ⟨by decide, by decide, by decide, by decide⟩

theorem bracket_stops {c : Char} (h : c = ']' ∨ c = '\x7d') (r : Text) : Stops (.char c :: r) := by
  rintro d ⟨⟩
  obtain rfl | rfl := h <;> exact ⟨by decide, by decide, by decide, by decide⟩

theorem tail_plain {t : Text} (h : Tail Manner.plain t) : Gap Manner.plain t := by
  cases h with
  | gap gap => exact gap
  | comma commas => cases commas

/-- Is the text read as the tree, in front of what no number goes on with? -/
def ReadsAs (v : Tree) (s : Text) : Prop :=
  ∀ r, Stops r → Gives (value (s ++ r)) v.value r

/-- A series begins with its first element. -/
theorem series_first {α : Type} {each : α → Text → Prop} {xs : List α} {s : Text}
    (opened : ∀ x s, each x s → Opens s) (h : Series Manner.plain each xs s) :
    ∃ x s' t, each x s' ∧ ∀ r, (s ++ r).dropWhile isBlank = s' ++ (t ++ r) := by
  cases h with
  | @last x g s t gap laid tail =>
      refine ⟨x, s, t, laid, fun r => ?_⟩
      rw [List.append_assoc, List.append_assoc]
      exact gap_solid gap (opens_solid (opened x s laid) _)
  | @next x xs g s g' t gap laid gap' rest =>
      refine ⟨x, s, g' ++ .char ',' :: t, laid, fun r => ?_⟩
      rw [List.append_assoc, List.append_assoc]
      exact gap_solid gap (opens_solid (opened x s laid) _)

theorem next_text (g s g' t r : Text) (c : CodePoint) :
    g ++ (s ++ (g' ++ c :: t)) ++ r = g ++ (s ++ (g' ++ c :: (t ++ r))) := by
  simp

theorem elements_series {items : List Tree} {s : Text}
    (reads : ∀ v ∈ items, ∀ s, Laid Manner.plain v s → ReadsAs v s)
    (h : Series Manner.plain (Laid Manner.plain) items s) (r : Text) :
    Gives (elements ((s ++ .char ']' :: r).dropWhile isBlank)) (Tree.values items) r := by
  induction h with
  | @last v g s t gap laid tail =>
      have gap' := tail_plain tail
      have read := reads v List.mem_cons_self s laid _ (gap_stops gap' (bracket_stops (.inl rfl) r))
      have closes : (t ++ .char ']' :: r).dropWhile isBlank = .char ']' :: r :=
        gap_solid gap' (by rintro c ⟨⟩; rfl)
      have alone : Tree.values [v] = v.value.map fun x => [x] := by
        rw [Tree.values, Tree.values]
        rfl
      rw [List.append_assoc, List.append_assoc, gap_solid gap (opens_solid (laid_opens laid) _),
        alone]
      exact elements_last read closes
  | @next v vs g s g' t gap laid gap' rest ih =>
      have read := reads v List.mem_cons_self s laid _
        (gap_stops gap' (stops_cons (.inl rfl) (t ++ .char ']' :: r)))
      have later := ih fun v among => reads v (List.mem_cons_of_mem _ among)
      rw [next_text, gap_solid gap (opens_solid (laid_opens laid) _), Tree.values]
      exact elements_next read (gap_solid gap' (by rintro c ⟨⟩; rfl)) rfl later

theorem member_named {name s : Text} {v : Tree}
    (reads : ∀ s, Laid Manner.plain v s → ReadsAs v s)
    (h : Named Manner.plain (Laid Manner.plain) (name, v) s) {r : Text} (stops : Stops r) :
    Reader.Member (s ++ r) (Tree.text name) v.value r := by
  cases h with
  | @mk _ _ g g' s body gap gap' laid =>
      have colon : (g ++ .char ':' :: (g' ++ (s ++ r))).dropWhile isBlank =
          .char ':' :: (g' ++ (s ++ r)) := gap_solid gap (by rintro c ⟨⟩; rfl)
      simp only [List.append_assoc, List.cons_append]
      exact ⟨_, _, memberName_between body _,
        separator_ok .expectingColon colon (gap_solid gap' (opens_solid (laid_opens laid) r)),
        reads s laid r stops⟩

theorem members_series {members : List (Text × Tree)} {s : Text}
    (reads : ∀ x ∈ members, ∀ s, Laid Manner.plain x.2 s → ReadsAs x.2 s)
    (h : Series Manner.plain (Named Manner.plain (Laid Manner.plain)) members s)
    (before : Dictionary Json) (r : Text) :
    Gives (Reader.members before ((s ++ .char '\x7d' :: r).dropWhile isBlank))
      (Tree.fields before members) r := by
  induction h generalizing before with
  | @last x g s t gap laid tail =>
      obtain ⟨name, v⟩ := x
      have gap' := tail_plain tail
      have member := member_named (reads _ List.mem_cons_self) laid
        (gap_stops gap' (bracket_stops (.inr rfl) r))
      have closes : (t ++ .char '\x7d' :: r).dropWhile isBlank = .char '\x7d' :: r :=
        gap_solid gap' (by rintro c ⟨⟩; rfl)
      have alone : Tree.fields before [(name, v)] =
          v.value.map fun x => before.insert (Tree.text name) x := by
        rw [Tree.fields]
        simp only [Tree.fields]
        rfl
      rw [List.append_assoc, List.append_assoc, gap_solid gap (opens_solid (named_opens laid) _),
        alone]
      exact members_last member closes
  | @next x xs g s g' t gap laid gap' rest ih =>
      obtain ⟨name, v⟩ := x
      have member := member_named (reads _ List.mem_cons_self) laid
        (gap_stops gap' (stops_cons (.inl rfl) (t ++ .char '\x7d' :: r)))
      have later := ih fun x among => reads x (List.mem_cons_of_mem _ among)
      rw [next_text, gap_solid gap (opens_solid (named_opens laid) _), Tree.fields]
      exact members_next member (gap_solid gap' (by rintro c ⟨⟩; rfl)) rfl
        fun x _ => later (before.insert (Tree.text name) x)

theorem brackets_text (c d : CodePoint) (s r : Text) :
    c :: (s ++ [d]) ++ r = c :: (s ++ d :: r) := by
  simp

/-- A plain text of a tree is read as what the tree stands for. -/
theorem laid_reads (v : Tree) : ∀ s, Laid Manner.plain v s → ReadsAs v s := by
  induction v using Tree.induct with
  | null =>
      intro s h r stops
      cases h with
      | null => exact value_word r (Text.ofString "null", .null) (by simp [words])
      | placeholder comments => cases comments
  | word w v =>
      intro s h r stops
      cases h with
      | word among => exact value_word r _ among
  | number w =>
      intro s h r stops
      cases h with
      | number written => exact value_token written stops
  | string body =>
      intro s h r stops
      cases h with
      | string body_ => exact value_between body_ r
  | array items ih =>
      intro s h r stops
      cases h with
      | @noItem g gap =>
          have closes : (g ++ .char ']' :: r).dropWhile isBlank = .char ']' :: r :=
            gap_solid gap (by rintro c ⟨⟩; rfl)
          rw [brackets_text]
          exact value_empty_array closes
      | array series =>
          obtain ⟨v, s', t, laid, first⟩ := series_first (fun _ _ => laid_opens) series
          have read := elements_series ih series r
          rw [brackets_text]
          refine value_array rfl ?_ read
          obtain ⟨c, u, rfl, opens_⟩ := laid_opens laid
          exact ⟨c, _, first _, opens_⟩
  | object members ih =>
      intro s h r stops
      cases h with
      | @noMember g gap =>
          have closes : (g ++ .char '\x7d' :: r).dropWhile isBlank = .char '\x7d' :: r :=
            gap_solid gap (by rintro c ⟨⟩; rfl)
          rw [brackets_text]
          exact value_empty_object closes
      | object series =>
          obtain ⟨x, s', t, named, first⟩ := series_first (fun _ _ => named_opens) series
          have read := members_series ih series [] r
          rw [brackets_text]
          refine value_object rfl ?_ read
          cases named
          exact ⟨_, first _⟩

theorem ending_plain {e : Text} (h : Ending Manner.plain e) : Gap Manner.plain e := by
  cases h with
  | gap gap => exact gap
  | line comments => cases comments

theorem written_head {v : Tree} {t : Text} (h : Written Manner.plain v t) :
    t.head? ≠ some (.char '\uFEFF') := by
  obtain ⟨gap, laid, ending⟩ := h
  obtain ⟨c, t, rfl, opens_⟩ := laid_opens laid
  rename_i g e
  cases g with
  | nil =>
      rintro ⟨⟩
      cases opens_
  | cons d g =>
      rintro ⟨⟩
      cases gap_blanks rfl gap _ List.mem_cons_self

/-- A plain text of a tree is JSON for what the tree stands for. -/
theorem read_written {v : Tree} {t : Text} (h : Written Manner.plain v t) :
    Json.read t = v.value := by
  have noMark := written_head h
  obtain ⟨gap, laid, ending⟩ := h
  rename_i g s e
  have ending := ending_plain ending
  have start := gap_solid gap (opens_solid (laid_opens laid) e)
  have finish : e.dropWhile isBlank = [] := by
    have blanks := gap_solid ending (s := []) nofun
    rwa [List.append_nil] at blanks
  have stops : Stops e := by
    have stops := gap_stops ending stops_nil
    rwa [List.append_nil] at stops
  have gives := laid_reads v s laid e stops
  have skipped : skipBlanks (g ++ (s ++ e)) = ⟨s ++ e, by simp⟩ := Subtype.ext start
  rw [Json.read, if_neg noMark, skipped]
  dsimp only
  cases outcome : v.value with
  | error f =>
      have fails : value (s ++ e) = .error f := by rwa [outcome] at gives
      rw [fails]
      rfl
  | ok x =>
      rw [outcome] at gives
      obtain ⟨shorter, reads⟩ := gives
      have skipped' : skipBlanks e = ⟨[], by simp⟩ := Subtype.ext finish
      rw [reads]
      simp only [bind, Except.bind]
      rw [skipped']
      rfl

/-! ## Cleaned texts -/

theorem series_each {α : Type} {m : Manner} {each : α → Text → Prop} {xs : List α} {s : Text}
    (h : Series m each xs s) : ∀ x ∈ xs, ∃ s, each x s := by
  induction h with
  | last gap laid tail =>
      intro x among
      rw [List.mem_singleton.mp among]
      exact ⟨_, laid⟩
  | next gap laid gap' rest ih => exact List.forall_mem_cons.mpr ⟨⟨_, laid⟩, ih⟩

/-- The only thing that can be wrong with a tree is an integer that has too many digits. -/
theorem laid_onlyTooLong {m : Manner} (v : Tree) : ∀ s, Laid m v s → OnlyTooLong v.value := by
  induction v using Tree.induct with
  | null => exact fun s _ => onlyTooLong_ok Json.null
  | word w v => exact fun s _ => onlyTooLong_ok v
  | number w =>
      intro s h
      cases h with
      | number written => exact onlyTooLong_number written
  | string body => exact fun s _ => onlyTooLong_ok (Json.string (Tree.text body))
  | array items ih =>
      intro s h
      refine onlyTooLong_map _ (onlyTooLong_values fun v among => ?_)
      cases h with
      | noItem => cases among
      | array series =>
          obtain ⟨s, laid⟩ := series_each series v among
          exact ih v among s laid
  | object members ih =>
      intro s h
      refine onlyTooLong_map _ (onlyTooLong_fields (fun x among => ?_) [])
      cases h with
      | noMember => cases among
      | object series =>
          obtain ⟨s, named⟩ := series_each series x among
          cases named with
          | mk name before after laid => exact ih _ among _ laid

/-- Decorated variables are cleaned as the plain ones are, or refused as they are. -/
theorem clean_decorated {v : Tree} {t r : Text} (decorated : Written Manner.decorated v t)
    (plain : Written Manner.plain v r) (indent : Nat) : clean indent t = clean indent r := by
  have stripped := read_written (strip_written decorated)
  have stripped' := read_written (strip_written plain)
  have only : OnlyTooLong v.value := by
    obtain ⟨gap, laid, ending⟩ := plain
    exact laid_onlyTooLong v _ laid
  have same : Variables.read t = Variables.read r := by
    rw [Variables.read, Variables.read, stripped, stripped']
    cases outcome : v.value with
    | ok x => rfl
    | error e =>
        obtain ⟨digits, rfl⟩ := only e outcome
        rfl
  rw [clean, clean, same]

/-- An object with a value that is missing and an array. -/
def pageTree : Tree :=
  .object [("id", .null), ("tags", .array [.string "a,\x7d"])]

/-- A placeholder, a comment that holds a quote, and commas after last elements. -/
theorem clean_decorated_of_page :
    clean 2 "\x7b\"id\": $id, // \"\n \"tags\": [\"a,\x7d\",],\x7d" =
      clean 2 "\x7b\"id\":null,\"tags\":[\"a,\x7d\"]\x7d" := by
  have plainBody {t : Text} (h : (t.all fun c => c ≠ .char '"' && c ≠ .char '\\' &&
      !decide (c.value < 0x20)) = true) : StringBody t := by
    induction t with
    | nil => exact .nil
    | cons c t ih =>
        simp only [List.all_cons, Bool.and_eq_true, decide_eq_true_eq, Bool.not_eq_true',
          decide_eq_false_iff_not] at h
        exact .plain h.1.1.1 h.1.1.2 h.1.2 (ih h.2)
  have id_ : StringBody "id" := plainBody (by decide)
  have tags : StringBody "tags" := plainBody (by decide)
  have a : StringBody "a,\x7d" := plainBody (by decide)
  have space {m : Manner} : Gap m [.char ' '] := .blank rfl .nil
  have comment : Gap Manner.decorated (.char ' ' :: (Text.ofString "//" ++
      (Text.ofString " \"" ++ .char '\n' :: [.char ' ']))) :=
    .blank rfl (.line rfl (by decide) (by decide) space)
  have missing : Laid Manner.decorated .null [.char '$', .char 'i', .char 'd'] :=
    .placeholder rfl rfl (by decide)
  have decorated : Laid Manner.decorated pageTree _ :=
    .object (.next .nil (.mk id_ .nil space missing) .nil
      (.last comment (.mk tags .nil space (.array (.last .nil (.string a) (.comma rfl .nil .nil))))
        (.comma rfl .nil .nil)))
  have plain_ : Laid Manner.plain pageTree _ :=
    .object (.next .nil (.mk id_ .nil .nil .null) .nil
      (.last .nil (.mk tags .nil .nil (.array (.last .nil (.string a) (.gap .nil)))) (.gap .nil)))
  exact clean_decorated (.mk .nil decorated (.gap .nil)) (.mk .nil plain_ (.gap .nil)) 2

end Variables

end ApprovedOps
